import SocketWrapper.Connection.Lemmas.Delivery
import SocketWrapper.Concurrent.Lemmas.Stopped

/-!
# How far the worker of an end gets

Every step of a worker is paid for by bytes that the other end has sent. If the worker can go no further, it
has handed over everything.
-/

namespace SocketWrapper

open ConditionalBufferedStream Transition

/-! ## The steps that a byte is worth -/

/-- A bound for the steps of the worker after a read, in a buffer of `N` bytes. -/
def stepsPerByte (S : Setup) (N : Nat) : Nat := S.handlers.length * handlerCost S.handlers.length N + 3

variable {S : Setup} {s s' : ConditionalBufferedStream} {w w' : WorkerAt} {m m' : Machine} {N : Nat}
  {size consumers : Nat} {bytes : List Byte} {answers : List Answer} {allowed : Machine → SocketWrapper.Action → Prop}

theorem WorkerMove.work_lt (h : WorkerMove S w s w' s') (hv : s.stream.Valid)
    (hsize : s.stream.streamBufferSize = N) :
    w'.cost S + stepsPerByte S N * s'.stream.stream.socket.unread.length + 1 ≤
      w.cost S + stepsPerByte S N * s.stream.stream.socket.unread.length := by
  by_cases hw : w = .reading
  · subst hw
    cases h with
    | @filled _ b n hread =>
        have hr := BufferedStream.refill hv (-1)
        rw [hread] at hr
        cases hr with
        | @data _ new hkept hne hle hcontents hunread _ _ =>
            have hmono : handlerCost S.handlers.length b.contents.length ≤ handlerCost S.handlers.length N := by
              refine handlerCost_mono _ (hkept.valid.contents_le.trans (Nat.le_of_eq ?_))
              exact hkept.size.trans hsize
            have henter := cost_enter_le S b.contents
            have hmul := Nat.mul_le_mul_left S.handlers.length hmono
            have hpaid : stepsPerByte S N * b.stream.socket.unread.length + stepsPerByte S N ≤
                stepsPerByte S N * s.stream.stream.socket.unread.length := by
              rw [hunread, List.length_append, ← Nat.mul_succ]
              refine Nat.mul_le_mul_left _ ?_
              have hpos := List.length_pos_iff.mpr hne
              omega
            simp only [WorkerAt.cost, List.map_cons, List.map_nil, List.sum_cons, List.sum_nil,
              stepsPerByte] at hpaid ⊢
            omega
    | @readFailed _ b e hread =>
        have hr := BufferedStream.refill hv (-1)
        rw [hread] at hr
        have hlt := cost_raised_le (S := S) e
        have hunread : b.stream.socket.unread = s.stream.stream.socket.unread := by
          cases hr with
          | closed _ _ _ hunread _ => exact hunread
          | failed _ _ hsocket _ => rw [hsocket]
        have hreading : WorkerAt.cost S .reading = S.handlers.length + 4 := rfl
        rw [hreading, hunread]
        omega
  · have hlt := h.cost_lt fun hreading => absurd hreading hw
    rw [h.stream hw]
    omega

/-! ## The size of the buffer -/

structure Sized (N : Nat) (m : Machine) : Prop where
  valid : m.stream.stream.Valid
  size : m.stream.stream.streamBufferSize = N

theorem size_of_workerMove (h : WorkerMove S w s w' s') (hv : s.stream.Valid) :
    s'.stream.streamBufferSize = s.stream.streamBufferSize := by
  have hread : ∀ {o b}, s.stream.readAvailableDataIntoBuffer (-1) = (o, b) →
      b.streamBufferSize = s.stream.streamBufferSize := by
    intro o b heq
    have hr := BufferedStream.refill hv (-1)
    rw [heq] at hr
    cases hr with
    | data hkept => exact hkept.size
    | closed hkept => exact hkept.size
    | failed hkept => exact hkept.size
    | waiting hkept => exact hkept.size
  have hpop : ∀ {fd v o s'}, s.popAndQueue fd v = (o, s') →
      s'.stream.streamBufferSize = s.stream.streamBufferSize := by
    intro fd v o s' heq
    obtain ⟨rs, hext⟩ := Extends.of_popAndQueue hv heq
    exact hext.size
  have hpost : ∀ {fd o s'}, s.post S fd = (o, s') →
      s'.stream.streamBufferSize = s.stream.streamBufferSize := by
    intro fd o s' heq
    exact (Extends.of_post hv heq).size
  cases h with
  | filled h => exact hread h
  | readFailed h => exact hread h
  | popped h _ => exact hpop h
  | discarded h _ => exact hpop h
  | popFailed h => exact hpop h
  | posted h => exact hpost h
  | postFailed h => exact hpost h
  | notified h =>
      have hkept := hpost h
      exact hkept
  | notifyFailed h => exact hpost h
  | _ => rfl

theorem Sized.of_reach
    (h : Reach (Machine.step S) allowed (.connected S N bytes answers consumers) m) : Sized N m := by
  refine ⟨(Conserved.of_reach h).valid, ?_⟩
  refine h.invariant_of (P := fun m => m.stream.stream.streamBufferSize = N) rfl
    (fun _ hr => (Conserved.of_reach hr).valid) fun m a m' hv hsize _ hstep => ?_
  cases (move_of_step hstep).2 with
  | worker hmove => exact (size_of_workerMove hmove hv).trans hsize
  | consumer hmove =>
      obtain ⟨q, k, cs, done, rfl⟩ := hmove.frame
      exact hsize
  | _ => exact hsize

/-! ## The work of an end -/

namespace Connection

variable {S : Side → Setup} {c c' : Connection} {x : Side} {fd : Fd} {condition : List Byte → Int32}
  {T : List Byte → List (List Byte)}
  {allowed : Connection → Action → Prop} {size writers consumers : Side → Nat}

/-- A step of the worker of `x`. -/
def Action.works (x : Side) : Action → Bool
  | .poll side _ => side = x
  | .other side .worker => side = x
  | _ => false

/-- A bound for the steps that are left to the worker of `x` if nothing more is sent to it. -/
def work (S : Side → Setup) (size : Side → Nat) (x : Side) (c : Connection) : Nat :=
  (c.ends x).machine.worker.cost (S x) + stepsPerByte (S x) (size x) * (c.unread x).length

/-- What the bytes that have been sent to `x` are worth. -/
def paid (S : Side → Setup) (size : Side → Nat) (x : Side) (c : Connection) : Nat :=
  stepsPerByte (S x) (size x) * (c.sent x.other).length

theorem sized_of_reach (h : Reach (step S) allowed (start S size writers consumers) c) (x : Side) :
    Sized (size x) (c.ends x).machine := by
  obtain ⟨answers, hreach⟩ := end_reach (x := x) (P := fun _ => True) trivial (fun _ _ _ => trivial) h
  exact .of_reach hreach

theorem cost_of_step {S : Setup} {m m' : Machine} {a : SocketWrapper.Action} (ha : a ≠ .worker)
    (h : m.step S a = some m') : m'.worker.cost S = m.worker.cost S := by
  cases (move_of_step h).2 with
  | start hw => simp [hw, WorkerAt.cost]
  | worker _ => exact absurd rfl ha
  | consumer hmove =>
      obtain ⟨q, k, cs, done, rfl⟩ := hmove.frame
      rfl
  | _ => rfl

theorem work_setMachine (m : Machine) : work S size x (c.setMachine x m) =
    m.worker.cost (S x) + stepsPerByte (S x) (size x) * m.stream.stream.stream.socket.unread.length := by
  simp [work, unread]

theorem work_setMachine_of_ne {side : Side} (h : x ≠ side) (m : Machine) :
    work S size x (c.setMachine side m) = work S size x c := by
  simp [work, unread, ends_setMachine_of_ne h]

@[simp] theorem paid_setMachine (side : Side) (m : Machine) :
    paid S size x (c.setMachine side m) = paid S size x c := by
  simp [paid]

theorem works_of_ofWriters {a : Action} {r : Side × Writers.Action} (h : a.ofWriters = some r) :
    a.works x = false := by
  cases a with
  | poll _ _ => cases h
  | other _ _ => cases h
  | _ => rfl

theorem Moves.work_le {a : Action} (h : Moves S c a c') (hsized : Sized (size x) (c.ends x).machine) :
    work S size x c' + paid S size x c + (if a.works x then 1 else 0) ≤
      work S size x c + paid S size x c' := by
  cases h with
  | @writes _ side wa w ha _ hw =>
      rw [works_of_ofWriters ha]
      rcases Side.eq_or_eq_other side x with rfl | rfl
      · have hsent : (c.setWriters x w).sent x.other = c.sent x.other := by
          simp [sent, ends_setWriters_of_ne (Side.other_ne x)]
        rw [work_setMachine_of_ne (Side.ne_other x), paid_setMachine]
        simp [work, paid, unread, hsent]
      · have hsent : (c.setWriters side w).sent side = c.sent side ++ newBytes (c.ends side).writers w := by
          simp [sent, sent_append hw]
        have hunread : ((c.ends side.other).machine.fed
            ((newBytes (c.ends side).writers w).map .inl)).stream.stream.stream.socket.unread =
              c.unread side.other ++ newBytes (c.ends side).writers w := by
          show c.unread side.other ++ Input.bytes _ = _
          rw [Input.bytes_inl]
        rw [work_setMachine, hunread, paid_setMachine]
        simp only [work, paid, Side.other_other, hsent, List.length_append, Nat.mul_add, worker_fed,
          Bool.false_eq_true, ↓reduceIte]
        omega
  | @polls side answer m hw hfind hstep =>
      rcases Side.eq_or_eq_other side x with rfl | rfl
      · have hunread : ((c.ends x).machine.fed [.inr answer]).stream.stream.stream.socket.unread = c.unread x :=
          List.append_nil _
        cases (move_of_step hstep).2 with
        | @worker w s hmove =>
            have hlt := hmove.work_lt ⟨hsized.valid.length_eq, hsized.valid.offset_le⟩ hsized.size
            rw [hunread] at hlt
            rw [work_setMachine, paid_setMachine]
            simp only [work, Action.works, decide_true, ↓reduceIte, worker_fed] at hlt ⊢
            omega
      · rw [work_setMachine_of_ne (Side.other_ne side), paid_setMachine]
        simp [Action.works]
  | @other side a m hw hstep =>
      rcases Side.eq_or_eq_other side x with rfl | rfl
      · rw [work_setMachine, paid_setMachine]
        by_cases ha : a = .worker
        · subst ha
          cases (move_of_step hstep).2 with
          | @worker w s hmove =>
              have hlt := hmove.work_lt hsized.valid hsized.size
              simp only [work, unread, Action.works, decide_true, ↓reduceIte] at hlt ⊢
              omega
        · have hworks : (Action.other x a).works x = false := by
            cases a with
            | worker => exact absurd rfl ha
            | _ => rfl
          rw [cost_of_step ha hstep, (socket_of_step hw hstep).1, hworks]
          simp [work, unread]
      · have hworks : (Action.other side a).works side.other = false := by
          cases a with
          | worker => simp [Action.works]
          | _ => rfl
        rw [work_setMachine_of_ne (Side.other_ne side), paid_setMachine, hworks]
        simp

theorem work_le_of_run {as : List Action}
    (h : run (step S) (fun _ _ => True) (start S size writers consumers) as = some c) (x : Side) :
    work S size x c + as.countP (Action.works x) ≤
      stepsPerByte (S x) (size x) * (c.sent x.other).length + ((S x).handlers.length + 4) := by
  have hpaid := countP_add_le_of_paid
    (Reach (step S) (fun _ _ => True) (start S size writers consumers)) (work S size x) (paid S size x)
    (Action.works x) h .refl fun c a c' hreach ha hstep =>
      ⟨hreach.tail ha hstep, (moves_of_step hstep).work_le (sized_of_reach hreach x)⟩
  have hstart : work S size x (start S size writers consumers) = (S x).handlers.length + 4 := by
    have hunread : (start S size writers consumers).unread x = [] := rfl
    rw [work, hunread, List.length_nil, Nat.mul_zero, Nat.add_zero]
    rfl
  rw [hstart] at hpaid
  simp only [paid] at hpaid
  omega

/-! ## An end that can go no further -/

/-- What the worker of `x` can do next, reads that fail apart. -/
def Action.advances (x : Side) : Action → Bool
  | .poll side (.readable _) => side = x
  | .other side .worker => side = x
  | _ => false

/-- The worker of `x` has no step to take and no bytes to read. -/
def Resting (S : Side → Setup) (x : Side) (c : Connection) : Prop :=
  ∀ a, Action.advances x a = true → c.step S a = none

theorem not_resting {a : Action} (ha : Action.advances x a = true) (h : c.step S a = some c') :
    ¬ c.Resting S x := by
  intro hrest
  rw [hrest a ha] at h
  cases h

theorem step_other (a : SocketWrapper.Action) (ha : a = .worker → (c.ends x).machine.worker ≠ .reading) :
    c.step S (.other x a) = ((c.ends x).machine.step (S x) a).map (c.setMachine x) := by
  cases a with
  | worker =>
      simp only [Connection.step]
      split
      · rename_i hw
        exact absurd hw (ha rfl)
      · rfl
  | _ => rfl

/-- The worker can read while there are bytes to come. -/
theorem exists_poll (hw : (c.ends x).machine.worker = .reading) (hopen : c.closed x = false)
    (hsettled : c.Settled) (hv : (c.ends x).machine.stream.stream.Valid) (hunread : c.unread x ≠ []) :
    ∃ c', c.step S (.poll x (.readable 0)) = some c' := by
  have hfind : c.CanFind x (.readable 0) := .inl (List.length_pos_iff.mpr hunread)
  have hanswers := hsettled.fed x (.readable 0)
  obtain ⟨r, hr⟩ := exists_workerStep (S := S x) (w := .reading)
    (s := ((c.ends x).machine.fed [.inr (.readable 0)]).stream) (fun _ b hread => by
      have hrefill := BufferedStream.refill
        (b := ((c.ends x).machine.fed [.inr (.readable 0)]).stream.stream)
        ⟨hv.length_eq, hv.offset_le⟩ (-1)
      rw [hread] at hrefill
      cases hrefill with
      | waiting _ _ _ _ hquiet =>
          have hmem := hquiet (.readable 0) (by rw [hanswers]; simp)
          cases hmem) (by simp) rfl
  have hopen' : ((c.ends x).machine.fed [.inr (.readable 0)]).halted = false := hopen
  refine ⟨c.setMachine x { (c.ends x).machine.fed [.inr (.readable 0)] with worker := r.1, stream := r.2 }, ?_⟩
  simp only [Connection.step, hw, hfind, ↓reduceIte, Machine.step, hopen', Bool.false_eq_true, Machine.act,
    worker_fed, hr, Option.map_some]

theorem exists_other {a : SocketWrapper.Action} {m : Machine}
    (ha : a = .worker → (c.ends x).machine.worker ≠ .reading) (hopen : c.closed x = false)
    (h : (c.ends x).machine.act (S x) a = some m) : ∃ c', c.step S (.other x a) = some c' := by
  have hopen' : (c.ends x).machine.halted = false := hopen
  refine ⟨c.setMachine x m, ?_⟩
  rw [step_other a ha, Machine.step, hopen', if_neg Bool.false_ne_true, h, Option.map_some]

/-- A worker that is neither reading nor through can take a step. -/
theorem exists_work {w : WorkerAt} (hw : (c.ends x).machine.worker = w) (hreading : w ≠ .reading)
    (hstarted : w ≠ .notStarted) (hend : w.end? = none) (hopen : c.closed x = false) :
    ∃ c', c.step S (.other x .worker) = some c' := by
  obtain ⟨r, hr⟩ := exists_workerStep (S := S x) (s := (c.ends x).machine.stream)
    (fun heq => absurd heq hreading) hstarted hend
  exact exists_other (fun _ heq => hreading (hw.symm.trans heq)) hopen
    (m := { (c.ends x).machine with worker := r.1, stream := r.2 }) (by simp [Machine.act, hw, hr])

/-- An end that is there, whose worker was started, has not failed and can go no further, has handed over
everything. -/
theorem handed_of_resting (hS : (S x).handlers = [pureHandler condition fd])
    (hcuts : CutsOff condition T (size x))
    (h : Reach (step S) allowed (start S size writers consumers) c)
    (hroom : Roomy condition (size x) (c.sent x.other))
    (hopen : c.closed x = false) (hstarted : (c.ends x).machine.worker ≠ .notStarted)
    (hwell : ∀ t, (c.ends x).machine.worker.failure? = some t → t = .SOCKET_CLOSED)
    (hrest : c.Resting S x) : c.handed x fd = T (c.sent x.other) := by
  have hcut := cut_of_reach hS hcuts h
  have hworks : ∀ w, (c.ends x).machine.worker = w → w ≠ .reading → w ≠ .notStarted → w.end? ≠ none := by
    intro w hw hreading hstarted hend
    obtain ⟨c', hstep⟩ := exists_work (S := S) hw hreading hstarted hend hopen
    exact not_resting (a := .other x .worker) (by simp [Action.advances]) hstep hrest
  cases hw : (c.ends x).machine.worker with
  | notStarted => exact absurd hw hstarted
  | reading =>
      have hspent : Spent condition (c.ends x).machine.stream.contents := by
        have hplace := hcut.place
        rw [hw] at hplace
        exact hplace
      have hnone : c.unread x = [] := by
        by_contra hunread
        obtain ⟨c', hstep⟩ := exists_poll (S := S) hw hopen (Settled.of_reach h) hcut.valid hunread
        exact not_resting (by simp [Action.advances]) hstep hrest
      rw [← segments_eq hS hcuts h, hnone, List.append_nil, hcuts.of_spent hcut.length_contents hspent,
        List.append_nil]
  | ended t =>
      obtain rfl := hwell t (by rw [hw]; rfl)
      exact (handed_of_found hS hcuts h hroom (by rw [hw]; rfl)).1
  | terminated e => simp [closed, Machine.halted, hw] at hopen
  | _ => exact absurd rfl (hworks _ hw (by simp) (by simp))

/-- The worker is in `readAvailableDataIntoBuffer`. -/
def isReading : WorkerAt → Bool
  | .reading => true
  | _ => false

theorem eq_reading {w : WorkerAt} (h : isReading w = true) : w = .reading := by
  cases w with
  | reading => rfl
  | _ => cases h

/-- A worker that reads rests while there is nothing to read. -/
theorem resting_of_reading (hw : (c.ends x).machine.worker = .reading) (hunread : c.unread x = [])
    (hopen : c.closed x.other = false) : c.Resting S x := by
  intro a ha
  cases a with
  | poll side answer =>
      cases answer with
      | readable available =>
          obtain rfl : side = x := by simpa [Action.advances] using ha
          simp [Connection.step, hw, CanFind, hunread, hopen]
      | _ => cases ha
  | other side a =>
      cases a with
      | worker =>
          obtain rfl : side = x := by simpa [Action.advances] using ha
          simp [Connection.step, hw]
      | _ => cases ha
  | _ => cases ha

end Connection

end SocketWrapper
