import SocketWrapper.Concurrent.Lemmas.Recorded
import SocketWrapper.Conditional.Lemmas.Cuts

/-!
# One handler that cuts its input into segments

Wherever the threads are, the segments delivered and those of what is in the buffer are the segments of what
has been received.
-/

namespace SocketWrapper

open ConditionalBufferedStream Transition

variable {S : Setup} {s s' : ConditionalBufferedStream} {w w' : WorkerAt} {m m' : Machine} {fd : Fd}
  {allowed : Machine → Action → Prop} {size N consumers : Nat} {bytes x : List Byte}
  {answers : List Answer} {condition : List Byte → Int32} {T : List Byte → List (List Byte)}

/-! ## Where the worker is -/

/-- The buffer and the calls of `processDataSendSignals` fit together. -/
def Cutting (S : Setup) (condition : List Byte → Int32) (fd : Fd) (s : ConditionalBufferedStream) :
    WorkerAt → Prop
  | .dispatching (f :: fs) =>
      ((f.rest = [] ∧ Spent condition s.contents) ∨ (f.rest = S.handlers ∧ f.data = s.contents)) ∧
        ∀ g ∈ fs, g.rest = []
  | .popping fd' v f fs => (fd' = fd ∧ v = condition s.contents ∧ v ≠ 0) ∧ f.data = s.contents ∧
      f.rest = [] ∧ ∀ g ∈ fs, g.rest = []
  | .posting _ v f fs => f.data.drop (absSize v) = s.contents ∧ f.rest = [] ∧ ∀ g ∈ fs, g.rest = []
  | .caught ex => ex.exceptionType ≠ .SOCKET_WRITE → Spent condition s.contents
  | .notifying t _ => t ≠ .SOCKET_WRITE → Spent condition s.contents
  | .ended t => t ≠ .SOCKET_WRITE → Spent condition s.contents
  | .terminated _ => True
  | _ => Spent condition s.contents

/-- What holds of the stream and the worker, whatever the other threads do. -/
structure Cut (S : Setup) (condition : List Byte → Int32) (T : List Byte → List (List Byte)) (fd : Fd)
    (N : Nat) (s : ConditionalBufferedStream) (w : WorkerAt) : Prop where
  valid : s.stream.Valid
  size : s.stream.streamBufferSize = N
  segments : ∀ y, delivered fd s.removals ++ T (s.contents ++ y) = T (s.stream.received ++ y)
  place : Cutting S condition fd s w

theorem Cut.length_contents (h : Cut S condition T fd N s w) : s.contents.length ≤ N :=
  h.valid.contents_le.trans (Nat.le_of_eq h.size)

theorem Cut.connected (N : Nat) (bytes : List Byte) (answers : List Answer) (consumers : Nat) :
    Cut S condition T fd N (Machine.connected S N bytes answers consumers).stream .notStarted := by
  have hcontents : (Machine.connected S N bytes answers consumers).stream.contents = [] :=
    BufferedStream.contents_make _ _
  exact ⟨.make _ _, rfl, fun y => by rw [hcontents]; rfl, .inl hcontents⟩

theorem contents_of_extends (hext : Extends s [] s') : s'.contents = s.contents := by
  simpa using hext.bytes

/-- A step that leaves the buffer, the socket and the removals alone. -/
theorem Cut.of_extends (h : Cut S condition T fd N s w) (hext : Extends s [] s')
    (hplace : Cutting S condition fd s' w') : Cut S condition T fd N s' w' where
  valid := hext.valid
  size := hext.size.trans h.size
  segments y := by
    rw [hext.removals, List.append_nil, contents_of_extends hext, BufferedStream.received, hext.socket]
    exact h.segments y
  place := hplace

/-! ## The steps of the worker -/

theorem Cutting.enter {frames : List Frame} {y : List Byte} (hy : y = s.contents)
    (hframes : ∀ g ∈ frames, g.rest = []) :
    Cutting S condition fd s (.dispatching (.enter S y :: frames)) := by
  refine ⟨?_, hframes⟩
  by_cases hnil : y = []
  · exact .inl ⟨by simp [Frame.enter, hnil], .inl (hy.symm.trans hnil)⟩
  · exact .inr ⟨by simp [Frame.enter, hnil], hy⟩

theorem Cutting.recurse {v : Int32} {frame : Frame} {frames : List Frame}
    (hdrop : frame.data.drop (absSize v) = s.contents) (hrest : frame.rest = [])
    (hframes : ∀ g ∈ frames, g.rest = []) :
    Cutting S condition fd s (.recurse S v frame frames) := by
  refine Cutting.enter hdrop fun g hg => ?_
  rcases List.mem_cons.mp hg with rfl | hg
  · exact hrest
  · exact hframes g hg

theorem Cut.reads (h : Cut S condition T fd N s .reading) (hmove : WorkerMove S .reading s w' s') :
    Cut S condition T fd N s' w' := by
  have hspent : Spent condition s.contents := h.place
  cases hmove with
  | @filled _ b n hread =>
      have hr := BufferedStream.refill h.valid (-1)
      rw [hread] at hr
      cases hr with
      | @data _ new hkept _ _ hcontents _ hcalls _ =>
          refine ⟨hkept.valid, hkept.size.trans h.size, fun y => ?_, Cutting.enter rfl (by simp)⟩
          have hsegments := h.segments (new ++ y)
          rw [ConditionalBufferedStream.contents, hcontents, BufferedStream.received_of_calls hcalls,
            List.append_assoc, List.append_assoc]
          exact hsegments
  | @readFailed _ b e hread =>
      have hr := BufferedStream.refill h.valid (-1)
      rw [hread] at hr
      cases hr with
      | closed hkept _ hcontents _ hcalls =>
          refine ⟨hkept.valid, hkept.size.trans h.size, fun y => ?_, fun _ => ?_⟩
          · rw [ConditionalBufferedStream.contents, hcontents, BufferedStream.received_of_calls hcalls,
              List.append_nil]
            exact h.segments y
          · rw [ConditionalBufferedStream.contents, hcontents]
            exact hspent
      | failed hkept hcontents hsocket =>
          refine ⟨hkept.valid, hkept.size.trans h.size, fun y => ?_, fun _ => ?_⟩
          · rw [ConditionalBufferedStream.contents, hcontents, BufferedStream.received, hsocket]
            exact h.segments y
          · rw [ConditionalBufferedStream.contents, hcontents]
            exact hspent

/-- The only handler that can be left is the one there is, and its data is the buffer. -/
theorem Cutting.handler {data : List Byte} {h : BufferEventHandler} {rest : List BufferEventHandler}
    {frames : List Frame} (hplace : Cutting S condition fd s (.dispatching (⟨data, h :: rest⟩ :: frames)))
    (hS : S.handlers = [pureHandler condition fd]) :
    h = pureHandler condition fd ∧ rest = [] ∧ data = s.contents ∧ ∀ g ∈ frames, g.rest = [] := by
  obtain ⟨htop, hframes⟩ := hplace
  rcases htop with ⟨hnil, -⟩ | ⟨hall, hdata⟩
  · cases hnil
  · simp only [hS, List.cons.injEq] at hall
    exact ⟨hall.1, hall.2, hdata, hframes⟩

theorem Cut.dispatches {frames : List Frame} (h : Cut S condition T fd N s (.dispatching frames))
    (hS : S.handlers = [pureHandler condition fd]) (hcuts : CutsOff condition T N)
    (hmove : WorkerMove S (.dispatching frames) s w' s') : Cut S condition T fd N s' w' := by
  cases hmove with
  | drained =>
      have hspent : Spent condition s.contents := h.place
      exact { h with place := hspent }
  | @returned _ data frames =>
      obtain ⟨htop, hframes⟩ := h.place
      have hspent : Spent condition s.contents := by
        rcases htop with ⟨-, hspent⟩ | ⟨hall, -⟩
        · exact hspent
        · simp [hS] at hall
      cases frames with
      | nil => exact { h with place := hspent }
      | cons g gs =>
          have hrest : g.rest = [] := hframes g (by simp)
          exact { h with place := ⟨.inl ⟨hrest, hspent⟩, fun g hg => hframes g (by simp [hg])⟩ }
  | refused hlt =>
      obtain ⟨rfl, -, rfl, -⟩ := h.place.handler hS
      exact absurd hlt (Nat.not_lt.mpr (hcuts.le _ h.length_contents))
  | skipped hzero =>
      obtain ⟨rfl, rfl, rfl, hframes⟩ := h.place.handler hS
      exact h.of_extends (.evaluate h.valid _ _) ⟨.inl ⟨rfl, .inr hzero⟩, hframes⟩
  | matched hne hle =>
      obtain ⟨rfl, rfl, rfl, hframes⟩ := h.place.handler hS
      exact h.of_extends (.evaluate h.valid _ _) ⟨⟨rfl, rfl, hne⟩, rfl, rfl, hframes⟩

/-- The segment goes to the queue, or nowhere. -/
theorem Cut.pops {fd' : Fd} {v : Int32} {frame : Frame} {frames : List Frame}
    (h : Cut S condition T fd N s (.popping fd' v frame frames)) (hcuts : CutsOff condition T N)
    (hmove : WorkerMove S (.popping fd' v frame frames) s w' s') : Cut S condition T fd N s' w' := by
  obtain ⟨⟨rfl, rfl, hne⟩, hdata, hrest, hframes⟩ := h.place
  have hpopped : ∀ s', s.popAndQueue fd' (condition s.contents) = (.returned (), s') →
      ∀ w', Cutting S condition fd' s' w' → Cut S condition T fd' N s' w' := by
    intro s' hpop w' hplace
    obtain ⟨-, hext, hcontents, -, -⟩ := of_popAndQueue_returned h.valid hpop
    refine ⟨hext.valid, hext.size.trans h.size, fun y => ?_, hplace⟩
    have hsegments := h.segments y
    rw [hcuts.cut s.contents y h.length_contents hne, ← List.append_assoc] at hsegments
    have hreceived : s'.stream.received = s.stream.received := by
      rw [BufferedStream.received, hext.socket]
      rfl
    rw [hext.removals, delivered_append, hcontents, hreceived]
    by_cases hpos : 0 < condition s.contents
    · simpa [delivered, hpos] using hsegments
    · simpa [delivered, hpos] using hsegments
  have hdropped : ∀ s', s.popAndQueue fd' (condition s.contents) = (.returned (), s') →
      frame.data.drop (absSize (condition s.contents)) = s'.contents := by
    intro s' hpop
    obtain ⟨-, -, hcontents, -, -⟩ := of_popAndQueue_returned h.valid hpop
    rw [hdata, hcontents]
  cases hmove with
  | popped hpop _ => exact hpopped _ hpop _ ⟨hdropped _ hpop, hrest, hframes⟩
  | discarded hpop _ => exact hpopped _ hpop _ (.recurse (hdropped _ hpop) hrest hframes)
  | popFailed hpop =>
      exact absurd (of_popAndQueue_threw h.valid hpop).1 (Nat.not_lt.mpr (hcuts.le _ h.length_contents))

theorem Cut.posts {fd' : Fd} {v : Int32} {frame : Frame} {frames : List Frame}
    (h : Cut S condition T fd N s (.posting fd' v frame frames))
    (hmove : WorkerMove S (.posting fd' v frame frames) s w' s') : Cut S condition T fd N s' w' := by
  obtain ⟨hdrop, hrest, hframes⟩ := h.place
  cases hmove with
  | posted hpost =>
      have hext := Extends.of_post h.valid hpost
      exact h.of_extends hext (.recurse (hdrop.trans (contents_of_extends hext).symm) hrest hframes)
  | postFailed hpost =>
      obtain ⟨⟨errno, rfl⟩, -⟩ := of_post_threw hpost
      exact h.of_extends (.of_post h.valid hpost) (fun hne => absurd rfl hne)

theorem Cut.notifies {t : SocketExceptionType} {rest : List BufferEventHandler}
    (h : Cut S condition T fd N s (.notifying t rest))
    (hmove : WorkerMove S (.notifying t rest) s w' s') : Cut S condition T fd N s' w' := by
  have hspent : t ≠ .SOCKET_WRITE → Spent condition s.contents := h.place
  cases hmove with
  | @notified _ s'' _ _ rest hpost =>
      have hext := Extends.of_post h.valid hpost
      have hkept : Cut S condition T fd N s'' (.notifying t rest) := h.of_extends hext fun hne => by
        rw [contents_of_extends hext]
        exact hspent hne
      exact ⟨hkept.valid, hkept.size, hkept.segments, hkept.place⟩
  | notifyFailed hpost => exact h.of_extends (.of_post h.valid hpost) trivial
  | ends => exact { h with place := hspent }

theorem Cut.worker (h : Cut S condition T fd N s w) (hS : S.handlers = [pureHandler condition fd])
    (hcuts : CutsOff condition T N) (hmove : WorkerMove S w s w' s') : Cut S condition T fd N s' w' := by
  cases w with
  | notStarted => cases hmove
  | reading => exact h.reads hmove
  | dispatching frames => exact h.dispatches hS hcuts hmove
  | popping fd' v frame frames => exact h.pops hcuts hmove
  | posting fd' v frame frames => exact h.posts hmove
  | caught ex =>
      cases hmove with
      | terminates _ => exact { h with place := h.place }
      | records _ => exact ⟨h.valid, h.size, h.segments, h.place⟩
  | notifying t rest => exact h.notifies hmove
  | ended t => cases hmove
  | terminated e => cases hmove

/-! ## The steps of the others -/

theorem Cut.move {a : Action} (h : Cut S condition T fd N m.stream m.worker)
    (hS : S.handlers = [pureHandler condition fd]) (hcuts : CutsOff condition T N)
    (hmove : Move S m a m') : Cut S condition T fd N m'.stream m'.worker := by
  cases hmove with
  | start hw =>
      have hspent : Cutting S condition fd m.stream .reading := by
        have hplace := h.place
        rw [hw] at hplace
        exact hplace
      exact { h with place := hspent }
  | worker hmove => exact h.worker hS hcuts hmove
  | consumer hmove =>
      obtain ⟨q, k, cs, done, rfl⟩ := hmove.frame
      exact ⟨h.valid, h.size, h.segments, h.place⟩
  | _ => exact ⟨⟨h.valid.length_eq, h.valid.offset_le⟩, h.size, h.segments, h.place⟩

theorem Cut.of_reach (hS : S.handlers = [pureHandler condition fd]) (hcuts : CutsOff condition T N)
    (h : Reach (Machine.step S) allowed (.connected S N bytes answers consumers) m) :
    Cut S condition T fd N m.stream m.worker :=
  h.invariant (P := fun m => Cut S condition T fd N m.stream m.worker)
    (.connected N bytes answers consumers)
    fun _ _ _ hcut _ hstep => hcut.move hS hcuts (move_of_step hstep).2

end SocketWrapper
