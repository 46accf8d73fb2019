import SocketWrapper.Connection.Machine
import SocketWrapper.Concurrent.Lemmas.Recorded
import SocketWrapper.Lib.Fed

/-!
# An end is a machine that is fed

A step of an end is a step of its machine with everything still to come. Only a read of the worker looks
at what is to come, and it does not get further than the poll in it has found.
-/

namespace SocketWrapper

open ConditionalBufferedStream Transition

variable {S : Setup} {s s' : ConditionalBufferedStream} {m m' : Machine} {is js : List Input}

/-! ## Functions that do not read -/

section

variable (s : ConditionalBufferedStream) (m : Machine) (is : List Input)

@[simp] theorem contents_fed : (s.fed is).contents = s.contents := rfl
@[simp] theorem eventFds_fed : (s.fed is).eventFds = s.eventFds := rfl
@[simp] theorem stream_fed : (m.fed is).stream = m.stream.fed is := rfl
@[simp] theorem worker_fed : (m.fed is).worker = m.worker := rfl
@[simp] theorem consumers_fed : (m.fed is).consumers = m.consumers := rfl
@[simp] theorem completions_fed : (m.fed is).completions = m.completions := rfl
@[simp] theorem destructor_fed : (m.fed is).destructor = m.destructor := rfl
@[simp] theorem stopping_fed : (m.fed is).stopping = m.stopping := rfl
@[simp] theorem halted_fed : (m.fed is).halted = m.halted := rfl

@[simp] theorem stream_fed_nil (s : Stream) : s.fed [] = s := by
  simp [Stream.fed]

@[simp] theorem machine_fed_nil : m.fed [] = m := by
  simp [Machine.fed, ConditionalBufferedStream.fed, BufferedStream.fed]

theorem machine_fed_append (js : List Input) : m.fed (is ++ js) = (m.fed is).fed js := by
  simp [Machine.fed, ConditionalBufferedStream.fed, BufferedStream.fed, Stream.fed]

theorem evaluate_fed (h : BufferEventHandler) (data : List Byte) :
    (s.fed is).evaluate h data = ((s.evaluate h data).1, (s.evaluate h data).2.fed is) := rfl

theorem popFromBuffer_fed (b : BufferedStream) (n : Nat) :
    (b.fed is).popFromBuffer n = ((b.popFromBuffer n).1, (b.popFromBuffer n).2.fed is) := by
  by_cases hlt : b.bufferWriteOffset < n
  · have hlt' : (b.fed is).bufferWriteOffset < n := hlt
    rw [BufferedStream.popFromBuffer, if_pos hlt', BufferedStream.popFromBuffer, if_pos hlt]
    rfl
  · have hlt' : ¬ (b.fed is).bufferWriteOffset < n := hlt
    rw [BufferedStream.popFromBuffer, if_neg hlt', BufferedStream.popFromBuffer, if_neg hlt]
    rfl

theorem popAndQueue_fed (fd : Fd) (v : Int32) :
    (s.fed is).popAndQueue fd v = ((s.popAndQueue fd v).1, (s.popAndQueue fd v).2.fed is) := by
  have hpop : (s.fed is).stream.popFromBuffer (absSize v) = _ := popFromBuffer_fed is s.stream (absSize v)
  simp only [popAndQueue, hpop, onStream]
  rcases s.stream.popFromBuffer (absSize v) with ⟨o, b⟩
  cases o <;> rfl

theorem post_fed (fd : Fd) :
    (s.fed is).post S fd = ((s.post S fd).1, (s.post S fd).2.fed is) := by
  simp only [post, eventFds_fed]
  split <;> rfl

theorem read_fed (fd : Fd) : (s.fed is).read fd = ((s.read fd).1, (s.read fd).2.fed is) := by
  have hqueues : (s.fed is).receivedDataPerCondition = s.receivedDataPerCondition := rfl
  have hlast : (s.fed is).lastEx = s.lastEx := rfl
  simp only [ConditionalBufferedStream.read, hqueues, hlast]
  split
  · rfl
  · rfl
  · split <;> rfl

end

/-! ## Steps that do not read -/

theorem workerStep_fed (w : WorkerAt) (hw : w ≠ .reading) :
    workerStep S w (s.fed is) = (workerStep S w s).map fun r => (r.1, r.2.fed is) := by
  cases w with
  | notStarted => rfl
  | reading => exact absurd rfl hw
  | dispatching frames =>
      rcases frames with _ | ⟨⟨data, _ | ⟨h, rest⟩⟩, frames⟩
      · rfl
      · rfl
      · simp only [workerStep, evaluate_fed]
        simp only [apply_ite (Option.map _), Option.map_some]
        rfl
  | popping fd v frame frames =>
      simp only [workerStep, popAndQueue_fed]
      rcases s.popAndQueue fd v with ⟨o, s'⟩
      cases o with
      | returned u =>
          by_cases hpos : 0 < v
          · simp only [if_pos hpos, Option.map_some]
          · simp only [if_neg hpos, Option.map_some]
      | threw e => rfl
      | waiting => rfl
  | posting fd v frame frames =>
      simp only [workerStep, post_fed]
      rcases s.post S fd with ⟨o, s'⟩
      cases o <;> rfl
  | caught ex =>
      by_cases hterm : ex.exceptionType = .SOCKET_TERMINATION_REQUEST
      · simp only [workerStep, if_pos hterm, Option.map_some]
      · simp only [workerStep, if_neg hterm, Option.map_some]
        rfl
  | notifying t rest =>
      cases rest with
      | nil => rfl
      | cons h rest =>
          simp only [workerStep, post_fed]
          rcases s.post S h.fd with ⟨o, s'⟩
          cases o <;> rfl
  | ended t => rfl
  | terminated e => rfl

theorem consumerStep_fed (m : Machine) (c : Nat) (a : ConsumerAction) :
    consumerStep (m.fed is) c a = (consumerStep m c a).map (fun m' => m'.fed is) := by
  simp only [consumerStep, consumers_fed, stream_fed, eventFds_fed, read_fed]
  rcases m.consumers[c]? with _ | place
  · rfl
  · cases place <;> cases a <;> first
      | rfl
      | (simp only [apply_ite (Option.map _), Option.map_some, Option.map_none]; rfl)

theorem destructorStep_fed (m : Machine) :
    destructorStep S (m.fed is) = (destructorStep S m).map (fun m' => m'.fed is) := by
  rcases m with ⟨s, w, cs, stopping, stopped, d, done⟩
  cases d with
  | alive => rfl
  | closing rest => cases rest <;> rfl
  | joining => cases w <;> rfl
  | destroyed => rfl
  | terminated e => rfl

theorem act_fed (m : Machine) {a : Action} (ha : a = .worker → m.worker ≠ .reading) :
    (m.fed is).act S a = (m.act S a).map (fun m' => m'.fed is) := by
  cases a with
  | start =>
      rcases m with ⟨s, w, cs, stopping, stopped, d, done⟩
      cases w <;> cases d <;> rfl
  | worker =>
      simp only [Machine.act, stream_fed, worker_fed, workerStep_fed m.worker (ha rfl),
        Option.map_map]
      rfl
  | consumer c a => exact consumerStep_fed m c a
  | stopReads =>
      simp only [Machine.act, stopping_fed, apply_ite (Option.map _), Option.map_some, Option.map_none]
      rfl
  | stopStream =>
      simp only [Machine.act, stopping_fed, apply_ite (Option.map _), Option.map_some, Option.map_none]
      rfl
  | destructor => exact destructorStep_fed m

theorem step_fed {a : Action} (ha : a = .worker → m.worker ≠ .reading) (h : m.step S a = some m') :
    (m.fed is).step S a = some (m'.fed is) := by
  simp only [Machine.step, halted_fed, act_fed m ha] at h ⊢
  split at h
  · cases h
  · rename_i hrunning
    rw [if_neg hrunning, h, Option.map_some]

/-! ### They leave the socket alone -/

theorem stream_popAndQueue (s : ConditionalBufferedStream) (fd : Fd) (v : Int32) :
    (s.popAndQueue fd v).2.stream.stream = s.stream.stream := by
  simp only [popAndQueue, onStream, BufferedStream.popFromBuffer]
  split <;> rfl

theorem stream_post (s : ConditionalBufferedStream) (fd : Fd) :
    (s.post S fd).2.stream = s.stream := by
  simp only [post]
  split <;> rfl

theorem WorkerMove.stream {w w' : WorkerAt} (h : WorkerMove S w s w' s') (hw : w ≠ .reading) :
    s'.stream.stream = s.stream.stream := by
  have hpop : ∀ {fd v o}, s.popAndQueue fd v = (o, s') → s'.stream.stream = s.stream.stream := by
    intro fd v o heq
    have hkept := stream_popAndQueue s fd v
    rwa [heq] at hkept
  have hpost : ∀ {fd o s''}, s.post S fd = (o, s'') → s''.stream.stream = s.stream.stream := by
    intro fd o s'' heq
    have hkept := stream_post (S := S) s fd
    rw [heq] at hkept
    exact congrArg BufferedStream.stream hkept
  cases h with
  | filled _ => exact absurd rfl hw
  | readFailed _ => exact absurd rfl hw
  | popped h _ => exact hpop h
  | discarded h _ => exact hpop h
  | popFailed h => exact hpop h
  | posted h => exact hpost h
  | postFailed h => exact hpost h
  | notified h =>
      have hkept := hpost h
      exact hkept
  | notifyFailed h => exact hpost h
  | _ => rfl

theorem socket_of_step {a : Action} (ha : a = .worker → m.worker ≠ .reading) (h : m.step S a = some m') :
    m'.stream.stream.stream.socket = m.stream.stream.stream.socket ∧
      m'.stream.stream.stream.answers = m.stream.stream.stream.answers := by
  cases (move_of_step h).2 with
  | worker hmove =>
      have hkept := hmove.stream (ha rfl)
      exact ⟨congrArg Stream.socket hkept, congrArg Stream.answers hkept⟩
  | consumer hmove =>
      obtain ⟨q, k, cs, done, rfl⟩ := hmove.frame
      exact ⟨rfl, rfl⟩
  | _ => exact ⟨rfl, rfl⟩

/-! ## What has been read and what has not -/

theorem WorkerMove.received {w w' : WorkerAt} (h : WorkerMove S w s w' s') (hv : s.stream.Valid) :
    s'.stream.received ++ s'.stream.stream.socket.unread =
      s.stream.received ++ s.stream.stream.socket.unread := by
  by_cases hw : w = .reading
  · subst hw
    have hread : ∀ {o b}, s.stream.readAvailableDataIntoBuffer (-1) = (o, b) →
        b.received ++ b.stream.socket.unread = s.stream.received ++ s.stream.stream.socket.unread := by
      intro o b heq
      have hr := BufferedStream.refill hv (-1)
      rw [heq] at hr
      cases hr with
      | data _ _ _ _ hunread hcalls _ =>
          rw [BufferedStream.received_of_calls hcalls, hunread, List.append_assoc]
      | closed _ _ _ hunread hcalls =>
          rw [BufferedStream.received_of_calls hcalls, hunread, List.append_nil]
      | failed _ _ hsocket _ => rw [BufferedStream.received, hsocket, BufferedStream.received]
      | waiting _ _ hsocket _ _ _ => rw [BufferedStream.received, hsocket, BufferedStream.received]
    cases h with
    | filled h => exact hread h
    | readFailed h => exact hread h
  · rw [BufferedStream.received, h.stream hw, BufferedStream.received]

theorem received_of_reach {allowed : Machine → Action → Prop} {size consumers : Nat} {bytes : List Byte}
    {answers : List Answer}
    (h : Reach (Machine.step S) allowed (.connected S size bytes answers consumers) m) :
    m.stream.stream.received ++ m.stream.stream.stream.socket.unread = bytes := by
  refine h.invariant_of
    (P := fun m => m.stream.stream.received ++ m.stream.stream.stream.socket.unread = bytes) rfl
    (fun _ hr => (Conserved.of_reach hr).valid) fun m a m' hv hbytes _ hstep => ?_
  cases (move_of_step hstep).2 with
  | worker hmove => exact (hmove.received hv).trans hbytes
  | consumer hmove =>
      obtain ⟨q, k, cs, done, rfl⟩ := hmove.frame
      exact hbytes
  | _ => exact hbytes

/-! ## The worker's read -/

/-- What is still to come does not change what a poll with this answer finds. -/
def Decided (s : Stream) (is : List Input) : Answer → Prop
  | .readable available => available < s.socket.unread.length ∨ Input.bytes is = []
  | _ => True

theorem decided_nil (s : Stream) (a : Answer) : Decided s [] a := by
  cases a with
  | readable available => exact .inr rfl
  | _ => trivial

theorem socket_read_fed {socket : Socket} {available : Nat} {xs : List Byte} (requested : Nat)
    (h : available < socket.unread.length ∨ xs = []) :
    (⟨socket.unread ++ xs, socket.calls⟩ : Socket).read requested available =
      ((socket.read requested available).1,
        ⟨(socket.read requested available).2.unread ++ xs, (socket.read requested available).2.calls⟩) := by
  rcases h with hlt | rfl
  · have hle : min requested (available + 1) ≤ socket.unread.length := by omega
    simp only [Socket.read, List.take_append_of_le_length hle, List.drop_append_of_le_length hle]
  · simp only [List.append_nil]

theorem streamRead_fed {s : Stream} {a : Answer} (hanswers : s.answers = [a]) (hdecided : Decided s is a)
    (maxBytes : Nat) (timeoutMs : Int) (hcomes : (s.read maxBytes 1 timeoutMs).outcome ≠ .waiting) :
    (s.fed is).read maxBytes 1 timeoutMs =
      ⟨(s.read maxBytes 1 timeoutMs).outcome, (s.read maxBytes 1 timeoutMs).stored,
        (s.read maxBytes 1 timeoutMs).stream.fed is⟩ := by
  rcases s with ⟨socket, stopEvent, answers⟩
  obtain rfl : answers = [a] := hanswers
  cases a with
  | pollFails errno => rfl
  | readFails errno => rfl
  | readable available =>
      have hread := socket_read_fed maxBytes hdecided
      by_cases hnil : (socket.read maxBytes available).1 = []
      · simp [Stream.read, Stream.fed, Stream.readLoop, hread, hnil]
      · have hone : 1 ≤ (socket.read maxBytes available).1.length := List.length_pos_iff.mpr hnil
        simp [Stream.read, Stream.fed, Stream.readLoop_more, Stream.readLoop_done hone, hread, hnil]
  | quiet =>
      by_cases hstop : 0 < stopEvent
      · simp [Stream.read, Stream.fed, Stream.readLoop, hstop]
      · by_cases htime : timeoutMs < 0
        · simp [Stream.read, Stream.readLoop, hstop, htime] at hcomes
        · simp [Stream.read, Stream.fed, Stream.readLoop, hstop, htime]

/-- A read of at least one byte uses the only answer there is. -/
theorem answers_streamRead {s : Stream} {a : Answer} (hanswers : s.answers = [a]) (maxBytes : Nat)
    (timeoutMs : Int) : (s.read maxBytes 1 timeoutMs).stream.answers = [] := by
  rcases s with ⟨socket, stopEvent, answers⟩
  obtain rfl : answers = [a] := hanswers
  cases a with
  | pollFails errno => rfl
  | readFails errno => rfl
  | readable available =>
      by_cases hnil : (socket.read maxBytes available).1 = []
      · simp [Stream.read, Stream.readLoop, hnil]
      · have hone : 1 ≤ (socket.read maxBytes available).1.length := List.length_pos_iff.mpr hnil
        simp [Stream.read, Stream.readLoop_more, Stream.readLoop_done hone, hnil]
  | quiet =>
      by_cases hstop : 0 < stopEvent
      · simp [Stream.read, Stream.readLoop, hstop]
      · by_cases htime : timeoutMs < 0
        · simp [Stream.read, Stream.readLoop, hstop, htime]
        · simp [Stream.read, Stream.readLoop, hstop, htime]

theorem stream_refill (b : BufferedStream) (timeoutMs : Int) :
    (b.readAvailableDataIntoBuffer timeoutMs).2.stream =
      (b.stream.read (sizeSub b.streamBufferSize b.bufferWriteOffset) 1 timeoutMs).stream := by
  simp only [BufferedStream.readAvailableDataIntoBuffer]
  split <;> rfl

theorem refill_fed {b : BufferedStream} {a : Answer} (hanswers : b.stream.answers = [a])
    (hdecided : Decided b.stream is a) (timeoutMs : Int)
    (hcomes : (b.readAvailableDataIntoBuffer timeoutMs).1 ≠ .waiting) :
    (b.fed is).readAvailableDataIntoBuffer timeoutMs =
      ((b.readAvailableDataIntoBuffer timeoutMs).1, (b.readAvailableDataIntoBuffer timeoutMs).2.fed is) := by
  have hread := streamRead_fed hanswers hdecided (sizeSub b.streamBufferSize b.bufferWriteOffset) timeoutMs
  have hfed : (b.fed is).stream.read
      (sizeSub (b.fed is).streamBufferSize (b.fed is).bufferWriteOffset) 1 timeoutMs =
    (b.stream.fed is).read (sizeSub b.streamBufferSize b.bufferWriteOffset) 1 timeoutMs := rfl
  simp only [BufferedStream.readAvailableDataIntoBuffer] at hcomes ⊢
  rw [hfed]
  rcases hr : b.stream.read (sizeSub b.streamBufferSize b.bufferWriteOffset) 1 timeoutMs with ⟨o, stored, s'⟩
  rw [hr] at hread hcomes
  cases o with
  | returned n =>
      rw [hread (by simp)]
      rfl
  | threw e =>
      rw [hread (by simp)]
      rfl
  | waiting => exact absurd rfl hcomes

theorem poll_fed {a : Answer} (hw : m.worker = .reading) (hanswers : m.stream.stream.stream.answers = [a])
    (hdecided : Decided m.stream.stream.stream is a) (h : m.step S .worker = some m') :
    (m.fed is).step S .worker = some (m'.fed is) ∧ m'.stream.stream.stream.answers = [] := by
  have hrunning : m.halted = false := (move_of_step h).1
  have hleft : (m.stream.stream.readAvailableDataIntoBuffer (-1)).2.stream.answers = [] := by
    rw [stream_refill]
    exact answers_streamRead hanswers _ _
  have hfed : (m.fed is).stream.stream.readAvailableDataIntoBuffer (-1) = _ :=
    refill_fed hanswers hdecided (-1) fun hwaiting => by
      rcases hr : m.stream.stream.readAvailableDataIntoBuffer (-1) with ⟨o, b⟩
      obtain rfl : o = .waiting := by rw [hr] at hwaiting; exact hwaiting
      simp [Machine.step, Machine.act, workerStep, hw, hr] at h
  simp only [Machine.step, halted_fed, hrunning, Bool.false_eq_true, ↓reduceIte, Machine.act, worker_fed,
    hw, workerStep, hfed] at h ⊢
  rcases hr : m.stream.stream.readAvailableDataIntoBuffer (-1) with ⟨o, b⟩
  rw [hr] at h hleft
  cases o with
  | returned n =>
      simp only [Option.map_some, Option.some.injEq] at h ⊢
      subst h
      exact ⟨rfl, hleft⟩
  | threw e =>
      simp only [Option.map_some, Option.some.injEq] at h ⊢
      subst h
      exact ⟨rfl, hleft⟩
  | waiting => cases h

end SocketWrapper
