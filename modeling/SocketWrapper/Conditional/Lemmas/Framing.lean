import SocketWrapper.Base.Lemmas.EndOfStream
import SocketWrapper.Conditional.Lemmas.Delimiter

/-!
# The first segment that a handler for a delimiter is given

The results of the condition are `int`s, so that in a buffer of more than 2 GiB a segment can be cut in
the wrong place, or be discarded in part. Whatever is cut, it is never the line without its delimiter.
-/

namespace SocketWrapper

open ConditionalBufferedStream

variable {d : Byte}

/-! ## Results that wrap around -/

theorem toInt_ofInt_wraps (z : Int) :
    ∃ m : Int, (Int32.ofInt z).toInt = z - 4294967296 * m ∧
      -2147483648 ≤ (Int32.ofInt z).toInt ∧ (Int32.ofInt z).toInt < 2147483648 := by
  simp only [Int32.toInt_ofInt, Int.bmod_def, int32_size]
  split
  · exact ⟨z / 4294967296, by omega⟩
  · exact ⟨z / 4294967296 + 1, by omega⟩

/-- A positive result is not the number of bytes before the delimiter. -/
theorem absSize_ne_of_pos {n : Nat} (h : 0 < Int32.ofInt (n + 1)) : absSize (Int32.ofInt (n + 1)) ≠ n := by
  obtain ⟨m, hvalue, -, -⟩ := toInt_ofInt_wraps (n + 1)
  rw [Int32.lt_iff_toInt_lt, Int32.toInt_zero] at h
  have hmin : Int32.ofInt (n + 1) ≠ Int32.minValue := by
    intro hmin
    rw [hmin] at h
    exact absurd h (by decide)
  rw [absSize_eq hmin]
  omega

/-- A negative result leaves the delimiter in the buffer, unless it is the minimum. -/
theorem absSize_le_of_not_pos {n : Nat} (h : ¬ 0 < Int32.ofInt (n + 1))
    (hsize : absSize (Int32.ofInt (n + 1)) < 2 ^ 63) : absSize (Int32.ofInt (n + 1)) ≤ n := by
  obtain ⟨m, hvalue, hlow, -⟩ := toInt_ofInt_wraps (n + 1)
  have hmin : Int32.ofInt (n + 1) ≠ Int32.minValue := by
    intro hmin
    rw [hmin, absSize_minValue] at hsize
    omega
  have hne : (Int32.ofInt (n + 1)).toInt ≠ -2147483648 := fun heq =>
    hmin (Int32.toInt_inj.mp (heq.trans (by decide)))
  rw [Int32.lt_iff_toInt_lt, Int32.toInt_zero] at h
  rw [absSize_eq hmin]
  omega

namespace SingleHandler

variable {S : Setup} {fd : Fd} {bytes : List Byte} {s : ConditionalBufferedStream}

/-! ## The first segment that is queued -/

theorem delivered_removalsOf_cons (v : Int32) (x : List Byte) (segments : List (Int32 × List Byte)) :
    delivered fd (removalsOf fd ((v, x) :: segments)) =
      if 0 < v then x :: delivered fd (removalsOf fd segments)
      else delivered fd (removalsOf fd segments) := by
  by_cases hpos : 0 < v <;> simp [removalsOf, delivered, hpos]

/-- The first of the segments that are queued has the delimiter in it, or is shorter than the line. -/
theorem first_delivered {p rest x : List Byte} (hd : d ∉ p) (state : Option Nat) (hx : x <+: p ++ d :: rest)
    (hfit : ∀ c ∈ ((segmenter S (getDelimiterCondition d)).drain state x).segments, c.2.length < 2 ^ 63)
    {q : List Byte} (hq : (delivered fd (removalsOf fd
      ((segmenter S (getDelimiterCondition d)).drain state x).segments)).head? = some q) :
    d ∈ q ∨ q.length < p.length := by
  induction state, x using Segmenter.cut_induction (segmenter S (getDelimiterCondition d))
    generalizing p with
  | stop state x hcut =>
      rw [Segmenter.drain_none hcut] at hq
      cases hq
  | step state x n v state' hcut ih =>
      obtain ⟨writes, -, hsome⟩ := Option.bind_eq_some_iff.mp hcut
      split at hsome
      · cases hsome
      · rename_i hcond
        rw [Segmenter.drain_some hcut] at hq hfit
        cases hsome
        rw [not_or] at hcond
        rcases Delimited.prefix_append_cons hx with hshort | ⟨y, rfl, hy⟩
        · exact absurd (getDelimiterCondition_of_notMem fun hmem => hd (hshort.subset hmem)) hcond.1
        · have hvalue := getDelimiterCondition_append (y := y) hd
          have hn : absSize (getDelimiterCondition d (p ++ d :: y)) < 2 ^ 63 := by
            have hlen := hfit _ (List.mem_cons_self ..)
            rwa [List.length_take, Nat.min_eq_left (Nat.not_lt.mp hcond.2)] at hlen
          rw [delivered_removalsOf_cons] at hq
          rw [hvalue] at hn hq hfit ih
          split at hq
          · rename_i hpos
            obtain rfl := Option.some.inj hq
            have hne := absSize_ne_of_pos hpos
            rcases Nat.lt_or_gt_of_ne hne with hlt | hgt
            · right
              rw [List.length_take]
              omega
            · left
              rw [List.mem_take_iff_getElem]
              refine ⟨p.length, ?_, ?_⟩
              · rw [List.length_append, List.length_cons]
                omega
              · simp
          · rename_i hneg
            have hle := absSize_le_of_not_pos hneg hn
            have hdrop : (p ++ d :: y).drop (absSize (Int32.ofInt (p.length + 1))) =
                p.drop (absSize (Int32.ofInt (p.length + 1))) ++ d :: y :=
              List.drop_append_of_le_length hle
            have hp : d ∉ p.drop (absSize (Int32.ofInt (p.length + 1))) :=
              fun hmem => hd (List.mem_of_mem_drop hmem)
            rw [hdrop] at hq hfit ih
            refine (ih hp ?_ (fun c hc => hfit c (List.mem_cons_of_mem _ hc)) hq).imp_right fun hlt => ?_
            · simpa using hy
            · rw [List.length_drop] at hlt
              omega

/-- What has been cut off the buffer was in it. -/
structure RemovedFromBuffer (N : Nat) (s : ConditionalBufferedStream) : Prop where
  valid : s.stream.Valid
  size : s.stream.streamBufferSize = N
  removals : ∀ r ∈ s.removals, r.segment.length ≤ N

theorem RemovedFromBuffer.refilled {N : Nat} (h : RemovedFromBuffer N s) {b' : BufferedStream}
    (hr : BufferedStream.Refilled s.stream b') : RemovedFromBuffer N { s with stream := b' } :=
  ⟨hr.valid, hr.size.trans h.size, h.removals⟩

theorem RemovedFromBuffer.extends {N : Nat} (h : RemovedFromBuffer N s) {s' : ConditionalBufferedStream}
    {rs : List Removal} (hext : Extends s rs s') : RemovedFromBuffer N s' where
  valid := hext.valid
  size := hext.size.trans h.size
  removals r hr := by
    rw [hext.removals, List.mem_append] at hr
    rcases hr with hold | hnew
    · exact h.removals r hold
    · have hle := h.valid.contents_le
      have hbytes := congrArg List.length hext.bytes
      have hpart : r.segment.length ≤ (rs.map Removal.segment).flatten.length :=
        (List.sublist_flatten_of_mem (List.mem_map_of_mem hnew)).length_le
      rw [List.length_append] at hbytes
      rw [h.size] at hle
      have hcontents : s.contents.length = s.stream.contents.length := rfl
      omega

theorem RemovedFromBuffer.afterBody {N : Nat} {r : Outcome Unit × ConditionalBufferedStream}
    (h : RemovedFromBuffer N r.2) : RemovedFromBuffer N (afterBody S r).2 := by
  obtain ⟨k, f, heq, -⟩ := afterBody_snd (S := S) r
  rw [heq]
  exact ⟨h.valid, h.size, h.removals⟩

theorem RemovedFromBuffer.workerBody {N : Nat} (h : RemovedFromBuffer N s) :
    RemovedFromBuffer N (s.workerBody S).2 := by
  have hrefill := BufferedStream.refill h.valid (-1)
  rw [ConditionalBufferedStream.workerBody, onStream]
  generalize s.stream.readAvailableDataIntoBuffer (-1) = r at hrefill ⊢
  have hrefilled := h.refilled hrefill.refilled
  cases hrefill with
  | @data b' bytes =>
      obtain ⟨rs, hext⟩ := Dispatched.processDataSendSignals (S := S) hrefilled.valid b'.contents
      exact hrefilled.extends hext
  | closed => exact hrefilled
  | failed => exact hrefilled
  | waiting => exact hrefilled

theorem RemovedFromBuffer.worker (N stopEvent : Nat) (answers : List Answer) (rounds : Nat) :
    RemovedFromBuffer N (conditionalBufferWorker S
      (connected S N bytes stopEvent answers) rounds).2 :=
  conditionalBufferWorker_invariant (P := fun w => RemovedFromBuffer N w.2)
    ⟨.make _ _, rfl, fun r hr => by cases hr⟩ (fun _ h => h.workerBody.afterBody) rounds

/-- The worker never queues, as its first segment, a line without its delimiter. -/
theorem queue_head_ne {N : Nat} {p rest : List Byte} (hd : d ∉ p)
    (hS : S.handlers = [pureHandler (getDelimiterCondition d) fd]) (hN : N < 2 ^ 63)
    (hbytes : bytes = p ++ d :: rest) (stopEvent : Nat) (answers : List Answer) (rounds : Nat) :
    ((conditionalBufferWorker S (connected S N bytes stopEvent answers) rounds).2.queue fd)[0]? ≠
      some p := by
  have htracks : Tracks S (getDelimiterCondition d) fd bytes (conditionalBufferWorker S
      (connected S N bytes stopEvent answers) rounds).2 :=
    (Segmenting.worker hS (prefixStable (getDelimiterCondition_prefixStable d)) N stopEvent answers
      rounds).tracks
  have hremoved : RemovedFromBuffer N (conditionalBufferWorker S
      (connected S N bytes stopEvent answers) rounds).2 := .worker N stopEvent answers rounds
  generalize conditionalBufferWorker S (connected S N bytes stopEvent answers) rounds = w
    at htracks hremoved ⊢
  intro hqueue
  rw [htracks.queue, htracks.removals, ← List.head?_eq_getElem?] at hqueue
  have hprefix : w.2.stream.received <+: p ++ d :: rest := ⟨_, hbytes ▸ htracks.sent⟩
  have hfirst := first_delivered hd (some 0) hprefix (fun c hc => ?_) hqueue
  · rcases hfirst with hmem | hlt
    · exact hd hmem
    · exact absurd hlt (Nat.lt_irrefl _)
  · refine Nat.lt_of_le_of_lt (hremoved.removals ⟨fd, c.1, c.2⟩ ?_) hN
    rw [htracks.removals]
    exact List.mem_map_of_mem (f := fun c => (⟨fd, c.1, c.2⟩ : Removal)) hc

end SingleHandler

end SocketWrapper
