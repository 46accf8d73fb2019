import SocketWrapper.Conditional.Lemmas.Fragmentation

/-!
# The delimiter condition

A worker whose handler waits for a delimiter, on a kernel that fails nothing.
-/

namespace SocketWrapper

open ConditionalBufferedStream

variable {d : Byte} {x p y : List Byte}

/-! ## `getDelimiterCondition` -/

theorem getDelimiterCondition_of_notMem (h : d ∉ x) : getDelimiterCondition d x = 0 := by
  have hnone : x.findIdx? (· == d) = none := by
    rw [List.findIdx?_eq_none_iff]
    intro a ha
    simpa using fun hd : a = d => h (hd ▸ ha)
  rw [getDelimiterCondition, hnone]

theorem findIdx?_delimiter (h : d ∉ p) : (p ++ d :: y).findIdx? (· == d) = some p.length := by
  have hnone : p.findIdx? (· == d) = none := by
    rw [List.findIdx?_eq_none_iff]
    intro a ha
    simpa using fun hd : a = d => h (hd ▸ ha)
  rw [List.findIdx?_append, hnone]
  simp [List.findIdx?_cons]

theorem getDelimiterCondition_append (h : d ∉ p) :
    getDelimiterCondition d (p ++ d :: y) = Int32.ofInt (p.length + 1) := by
  rw [getDelimiterCondition, findIdx?_delimiter h]

theorem int32_size : (Int32.size : Int) = 4294967296 := rfl

theorem natAbs_toInt_ofInt_le (n : Nat) : (Int32.ofInt n).toInt.natAbs ≤ n := by
  have hnonneg := Int.natCast_nonneg n
  have hbounds : -(n : Int) ≤ (Int32.ofInt n).toInt ∧ (Int32.ofInt n).toInt ≤ n := by
    simp only [Int32.toInt_ofInt, Int.bmod_def, int32_size]
    split <;> omega
  omega

/-- The condition keeps the documented contract: it never asks for more than there is. -/
theorem getDelimiterCondition_contract (d : Byte) (x : List Byte) :
    (getDelimiterCondition d x).toInt.natAbs ≤ x.length := by
  by_cases h : d ∈ x
  · obtain ⟨p, y, rfl, hp⟩ := List.eq_append_cons_of_mem h
    have hle := natAbs_toInt_ofInt_le (p.length + 1)
    rw [getDelimiterCondition_append hp, List.length_append, List.length_cons]
    push_cast at hle ⊢
    omega
  · rw [getDelimiterCondition_of_notMem h]
    exact Nat.zero_le _

theorem toInt_ofInt_of_lt {n : Nat} (h : n < 2 ^ 31) : (Int32.ofInt n).toInt = n := by
  rw [Int32.toInt_ofInt]
  simp only [Int.bmod_def, int32_size]
  split <;> omega

theorem absSize_ofInt {n : Nat} (h : n < 2 ^ 31) : absSize (Int32.ofInt n) = n := by
  have htoInt := toInt_ofInt_of_lt h
  rw [absSize_eq, htoInt, Int.natAbs_natCast]
  intro hmin
  rw [hmin] at htoInt
  have : Int32.minValue.toInt = -2 ^ 31 := by decide
  omega

theorem ofInt_pos {n : Nat} (h : n < 2 ^ 31) (hpos : 0 < n) : 0 < Int32.ofInt n := by
  rw [Int32.lt_iff_toInt_lt, toInt_ofInt_of_lt h]
  simpa using hpos

theorem absSize_getDelimiterCondition_le (d : Byte) (hx : x.length < 2 ^ 31) :
    absSize (getDelimiterCondition d x) ≤ x.length := by
  by_cases h : d ∈ x
  · obtain ⟨p, y, rfl, hp⟩ := List.eq_append_cons_of_mem h
    simp only [List.length_append, List.length_cons] at hx ⊢
    have hsize := absSize_ofInt (n := p.length + 1) (by omega)
    push_cast at hsize
    rw [getDelimiterCondition_append hp, hsize]
    omega
  · rw [getDelimiterCondition_of_notMem h, absSize_zero]
    exact Nat.zero_le _

theorem getDelimiterCondition_prefixStable (d : Byte) (x y : List Byte)
    (h : getDelimiterCondition d x ≠ 0) :
    getDelimiterCondition d (x ++ y) = getDelimiterCondition d x := by
  have hmem : d ∈ x := by
    by_contra hd
    exact h (getDelimiterCondition_of_notMem hd)
  obtain ⟨p, z, rfl, hp⟩ := List.eq_append_cons_of_mem hmem
  rw [List.append_assoc, List.cons_append, getDelimiterCondition_append hp,
    getDelimiterCondition_append hp]

/-- The condition's value is the index of the first delimiter plus one, or 0 exactly where there is
none. -/
structure ReportsDelimiter (d : Byte) (x : List Byte) : Prop where
  position : d ∈ x → (getDelimiterCondition d x).toInt = x.idxOf d + 1
  zero_iff : getDelimiterCondition d x = 0 ↔ d ∉ x

theorem reportsDelimiter_iff : ReportsDelimiter d x ↔ (d ∈ x → x.idxOf d + 1 < 2 ^ 31) := by
  by_cases hd : d ∈ x
  · obtain ⟨p, y, rfl, hp⟩ := List.eq_append_cons_of_mem hd
    have hidx : (p ++ d :: y).idxOf d = p.length := by
      rw [List.idxOf_append_of_notMem hp, List.idxOf_cons_self, Nat.add_zero]
    rw [hidx]
    constructor
    · intro h _
      have hvalue := h.position hd
      have hlt := (getDelimiterCondition d (p ++ d :: y)).toInt_lt
      omega
    · intro h
      have hlt := h hd
      have hvalue : getDelimiterCondition d (p ++ d :: y) = Int32.ofInt (p.length + 1 : Nat) :=
        getDelimiterCondition_append hp
      refine ⟨fun _ => ?_, ?_⟩
      · rw [hvalue, toInt_ofInt_of_lt hlt, hidx]
        rfl
      · have hsize := absSize_ofInt hlt
        rw [← hvalue] at hsize
        refine ⟨fun hzero => ?_, fun hnone => absurd hd hnone⟩
        rw [hzero, absSize_zero] at hsize
        omega
  · have hzero := getDelimiterCondition_of_notMem hd
    exact ⟨fun _ h => absurd h hd, fun _ => ⟨fun h => absurd h hd, fun _ => hd, fun _ => hzero⟩⟩

/-! ## The segmenter of the delimiter condition -/

namespace SingleHandler

variable {S : Setup} {fd : Fd} {N : Nat} {bytes : List Byte} {cuts : List Nat}
  {s : ConditionalBufferedStream}

theorem cutsAfter (hwrite : ∀ n, S.eventfdWrite n = none) (d : Byte) (hN : N < 2 ^ 31) :
    Delimited.CutsAfter (segmenter S (getDelimiterCondition d)) d N (fun state => state.isSome)
      (fun v => 0 < v) where
  skip state x _ hd := cut_none (.inl (getDelimiterCondition_of_notMem hd)) state
  take state p y halive hd hle := by
    obtain ⟨writes, rfl⟩ := Option.isSome_iff_exists.mp halive
    have hlt : p.length + 1 < 2 ^ 31 := by omega
    have hvalue : getDelimiterCondition d (p ++ d :: y) = Int32.ofInt (p.length + 1 : Nat) :=
      getDelimiterCondition_append hd
    have hpos := ofInt_pos hlt (Nat.succ_pos _)
    have hsize := absSize_ofInt hlt
    refine ⟨Int32.ofInt (p.length + 1 : Nat), some (writes + 1), ?_, rfl, hpos⟩
    rw [cut_some, hvalue, hsize, afterSegment, if_pos hpos, hwrite]
    rw [hvalue, hsize, not_or]
    refine ⟨fun hzero => ?_, by simp only [List.length_append, List.length_cons]; omega⟩
    rw [hzero] at hsize
    simp at hsize

/-- The segments, delimiters included, fit into a buffer of `N` bytes, and what is left does not fill it. -/
structure Fits (d : Byte) (N : Nat) (bytes : List Byte) : Prop where
  segments : ∀ seg ∈ (Delimited.splitAfter d bytes).1, seg.length ≤ N
  tail : (Delimited.splitAfter d bytes).2.length < N

theorem progress (hwrite : ∀ n, S.eventfdWrite n = none) (hN : N < 2 ^ 31) (hfits : Fits d N bytes)
    (h : Tracks S (getDelimiterCondition d) fd bytes s) :
    Delimited.Progress (drained S (getDelimiterCondition d) s) bytes s.stream.received
      (Delimited.splitAfter d bytes).1 (Delimited.splitAfter d bytes).2 N
      (fun state => state.isSome) (fun v => 0 < v) :=
  Delimited.progress (cutsAfter hwrite d hN) (Delimited.split_splitAfter d bytes) hfits.segments
    hfits.tail rfl ⟨_, h.sent⟩

/-- Segments with positive results are all delivered. -/
theorem delivered_removalsOf {segments : List (Int32 × List Byte)} (h : ∀ c ∈ segments, 0 < c.1) :
    delivered fd (removalsOf fd segments) = segments.map Prod.snd := by
  induction segments with
  | nil => rfl
  | cons c segments ih =>
      have hpos : 0 < c.1 := h c (by simp)
      have ih := ih fun c hc => h c (by simp [hc])
      simp only [removalsOf, delivered, List.map_cons] at ih ⊢
      rw [List.filter_cons_of_pos (by simp [hpos]), List.map_cons, ih]

/-- The queue holds segments of the input, and all of them once the input has been received. -/
theorem queue_of_tracks (hwrite : ∀ n, S.eventfdWrite n = none) (hN : N < 2 ^ 31) (hfits : Fits d N bytes)
    (h : Tracks S (getDelimiterCondition d) fd bytes s) :
    s.queue fd <+: (Delimited.splitAfter d bytes).1 ∧
      (s.stream.stream.socket.unread = [] →
        s.queue fd = (Delimited.splitAfter d bytes).1 ∧
        s.contents = (Delimited.splitAfter d bytes).2) := by
  have hprogress := progress hwrite hN hfits h
  have hqueue : s.queue fd = (drained S (getDelimiterCondition d) s).segments.map Prod.snd := by
    rw [h.queue, h.removals, delivered_removalsOf hprogress.tagged]
  rw [hqueue, h.contents]
  refine ⟨hprogress.segments, fun hunread => hprogress.complete ?_⟩
  rw [← h.sent, hunread, List.append_nil]

/-- The worker waits for more, or it has seen the end of the stream. -/
inductive Delimiting (S : Setup) (d : Byte) (fd : Fd) (N : Nat) (bytes : List Byte) (cuts : List Nat) :
    WorkerStatus × ConditionalBufferedStream → Prop
  | running {s : ConditionalBufferedStream} (left : List Nat) :
      Segmenting S (getDelimiterCondition d) fd bytes (.running, s) →
      s.stream.streamBufferSize = N → s.stream.stream.stopEvent = 0 →
      s.stream.stream.answers = left.map .readable →
      cuts.length ≤ left.length + s.stream.received.length →
      Delimiting S d fd N bytes cuts (.running, s)
  | closed {s : ConditionalBufferedStream} :
      Tracks S (getDelimiterCondition d) fd bytes s → s.stream.stream.socket.unread = [] →
      s.lastEx = .SOCKET_CLOSED → Delimiting S d fd N bytes cuts (.ended .SOCKET_CLOSED, s)

theorem Delimiting.tracks {w : WorkerStatus × ConditionalBufferedStream}
    (h : Delimiting S d fd N bytes cuts w) : Tracks S (getDelimiterCondition d) fd bytes w.2 := by
  cases h with
  | running left hseg _ _ _ _ => exact hseg.tracks
  | closed htracks _ _ => exact htracks

/-- With the lengths as they are, a running worker always has room for a byte. -/
theorem Delimiting.room (hwrite : ∀ n, S.eventfdWrite n = none) (hN : N < 2 ^ 31)
    (hfits : Fits d N bytes) (htracks : Tracks S (getDelimiterCondition d) fd bytes s)
    (hsize : s.stream.streamBufferSize = N) :
    s.stream.contents.length < s.stream.streamBufferSize := by
  have hroom := (progress hwrite hN hfits htracks).room
  rw [← htracks.contents] at hroom
  rw [hsize]
  exact hroom

theorem Ends.returned {r : Outcome Unit × ConditionalBufferedStream}
    (hwrite : ∀ n, S.eventfdWrite n = none) (hN : N < 2 ^ 31) (hfits : Fits d N bytes)
    (htracks : Tracks S (getDelimiterCondition d) fd bytes r.2)
    (hends : Ends (getDelimiterCondition d) (drained S (getDelimiterCondition d) r.2) r) :
    r.1 = .returned () := by
  have hprogress := progress hwrite hN hfits htracks
  rcases hends with ⟨hret, -⟩ | ⟨e, -, hdead | hlong⟩
  · exact hret
  · have halive := hprogress.alive
    rw [hdead] at halive
    cases halive
  · have hshort : (drained S (getDelimiterCondition d) r.2).rest.length < 2 ^ 31 :=
      Nat.lt_trans hprogress.room hN
    exact absurd hlong (Nat.not_lt.mpr (absSize_getDelimiterCondition_le d hshort))

theorem Delimiting.afterClosed (N : Nat) (cuts : List Nat) (hwrite : ∀ n, S.eventfdWrite n = none)
    (htracks : Tracks S (getDelimiterCondition d) fd bytes s)
    (hunread : s.stream.stream.socket.unread = []) :
    Delimiting S d fd N bytes cuts (afterBody S (.socketError .SOCKET_CLOSED 0, s)) ∧
      (afterBody S (.socketError .SOCKET_CLOSED 0, s)).1 ≠ .running := by
  have hafter := htracks.afterBody (S := S) (r := (.socketError .SOCKET_CLOSED 0, s))
  have hstatus := afterBody_of_succeeds (S := S) (s := s) (.withErrno .SOCKET_CLOSED 0)
    ⟨hwrite, htracks.opened⟩
  obtain ⟨k, f, heq, -⟩ := afterBody_snd (S := S) (.socketError .SOCKET_CLOSED 0, s)
  generalize afterBody S (.socketError .SOCKET_CLOSED 0, s) = w at hafter hstatus heq ⊢
  obtain ⟨w, s'⟩ := w
  obtain rfl : w = .ended .SOCKET_CLOSED := hstatus
  obtain rfl : s' = _ := heq
  exact ⟨.closed hafter hunread rfl, by simp⟩

theorem Delimiting.round (hS : S.handlers = [pureHandler (getDelimiterCondition d) fd])
    (hwrite : ∀ n, S.eventfdWrite n = none) (hN : N < 2 ^ 31) (hfits : Fits d N bytes)
    (h : Delimiting S d fd N bytes cuts (.running, s)) :
    Delimiting S d fd N bytes cuts (afterBody S (s.workerBody S)) ∧
      ((afterBody S (s.workerBody S)).1 = .running →
        s.stream.received.length < (afterBody S (s.workerBody S)).2.stream.received.length ∨
          cuts.length ≤ (afterBody S (s.workerBody S)).2.stream.received.length) := by
  obtain ⟨left, hseg, hsize, hstop, hanswers, hcount⟩ := h
  have hstable := prefixStable (S := S) (getDelimiterCondition_prefixStable d)
  have htracks : Tracks S (getDelimiterCondition d) fd bytes s := hseg.tracks
  have hroom := Delimiting.room hwrite hN hfits htracks hsize
  have hrefill := BufferedStream.refill htracks.valid (-1)
  rw [workerBody, onStream]
  generalize s.stream.readAvailableDataIntoBuffer (-1) = r at hrefill ⊢
  cases hrefill with
  | @data b' new hr hne _ hcontents hunread hcalls harrival =>
      have hreceived := BufferedStream.received_of_calls hcalls
      obtain ⟨htracks', hends⟩ := htracks.process hS hstable (hseg.state rfl) hr.valid hcontents
        hreceived hunread
      obtain ⟨rs, hext⟩ := Dispatched.processDataSendSignals (S := S)
        (s := { s with stream := b' }) hr.valid b'.contents
      rw [hanswers] at harrival
      obtain ⟨cut, left', rfl, hleft'⟩ := Arrival.of_cuts harrival
      simp only [Outcome.andThen_returned]
      generalize ({ s with stream := b' } : ConditionalBufferedStream).processDataSendSignals S
        b'.contents = r at htracks' hends hext ⊢
      have hret := hends.returned hwrite hN hfits htracks'
      have hstate := hends.state_of_returned (.inl hret)
      have hlen : r.2.stream.received.length = s.stream.received.length + new.length := by
        rw [← List.length_append, ← hreceived]
        exact congrArg (fun b => (Socket.received b.socket).length) hext.socket
      have hnew := List.length_pos_iff.mpr hne
      obtain ⟨o, s'⟩ := r
      obtain rfl : o = .returned () := hret
      rw [List.length_cons] at hcount
      refine ⟨.running left' ⟨htracks', fun _ => hstate⟩ (hext.size.trans (hr.size.trans hsize)) ?_ ?_ ?_,
        fun _ => .inl ?_⟩
      · exact (congrArg Stream.stopEvent hext.socket).trans (hr.stopEvent.trans hstop)
      · exact (congrArg Stream.answers hext.socket).trans hleft'
      · simp only at hlen
        omega
      · show s.stream.received.length < s'.stream.received.length
        simp only at hlen
        omega
  | closed hr hend hcontents hunread hcalls =>
      have hreceived := BufferedStream.received_of_calls hcalls
      rw [List.append_nil] at hreceived
      have hempty : s.stream.stream.socket.unread = [] := hend.resolve_left (Nat.ne_of_lt hroom)
      obtain ⟨hafter, hdone⟩ := Delimiting.afterClosed N cuts hwrite
        (htracks.idle hr.valid hcontents hreceived hunread) (hunread.trans hempty)
      exact ⟨hafter, fun hrun => absurd hrun hdone⟩
  | failed _ _ _ hfails =>
      rw [hanswers, hstop] at hfails
      exact hfails.not_of_cuts.elim
  | waiting hr hcontents hsocket _ hquiet hans =>
      have hreceived : _ = s.stream.received := congrArg Socket.received hsocket
      have hidle := htracks.idle hr.valid hcontents hreceived (congrArg _ hsocket)
      obtain rfl : left = [] := by
        cases left with
        | nil => rfl
        | cons cut left =>
            rw [hanswers] at hquiet
            exact absurd (hquiet (.readable cut) (by simp)) (by simp)
      rw [List.length_nil, Nat.zero_add, ← hreceived] at hcount
      refine ⟨.running [] ⟨hidle, fun _ => ?_⟩ (hr.size.trans hsize) (hr.stopEvent.trans hstop)
        hans ?_, fun _ => .inr hcount⟩
      · exact (congrArg (fun x => ((segmenter S _).drain (some 0) x).state) hreceived).trans
          (hseg.state rfl)
      · rw [List.length_nil, Nat.zero_add]
        exact hcount

theorem Delimiting.worker (cuts : List Nat) (hS : S.handlers = [pureHandler (getDelimiterCondition d) fd])
    (hwrite : ∀ n, S.eventfdWrite n = none) (hN : N < 2 ^ 31) (hfits : Fits d N bytes)
    (rounds : Nat) :
    Delimiting S d fd N bytes cuts (conditionalBufferWorker S
      (connected S N bytes 0 (cuts.map .readable)) rounds) := by
  refine conditionalBufferWorker_invariant ?_ (fun s h => (h.round hS hwrite hN hfits).1) rounds
  refine .running cuts ?_ rfl rfl rfl (Nat.le_add_right _ _)
  exact ⟨.make N 0 _, fun _ => congrArg Segmenter.Drained.state drain_nil⟩

/-- Each round that does not end the worker receives a byte, as long as the socket has an answer. -/
theorem Delimiting.rounds_le (hS : S.handlers = [pureHandler (getDelimiterCondition d) fd])
    (hwrite : ∀ n, S.eventfdWrite n = none) (hN : N < 2 ^ 31) (hfits : Fits d N bytes)
    (rounds : Nat) :
    let w := conditionalBufferWorker S
      (connected S N bytes 0 (cuts.map .readable)) rounds
    w.1 = .running → rounds ≤ w.2.stream.received.length ∨ cuts.length ≤ w.2.stream.received.length := by
  induction rounds with
  | zero => exact fun _ => .inl (Nat.zero_le _)
  | succ rounds ih =>
      have hdel := Delimiting.worker cuts hS hwrite hN hfits rounds
      rw [conditionalBufferWorker_succ]
      generalize conditionalBufferWorker S _ rounds = w at hdel ih
      cases hdel with
      | @running s left hseg hsize hstop hanswers hcount =>
          intro w hrun
          obtain ⟨hnext, hgrow⟩ := Delimiting.round hS hwrite hN hfits
            (.running left hseg hsize hstop hanswers hcount)
          have hgrow := hgrow hrun
          rcases ih rfl with hle | hle
          · exact hgrow.imp_left (Nat.lt_of_le_of_lt hle)
          · exact .inr (hgrow.elim (fun hlt => Nat.le_of_lt (Nat.lt_of_le_of_lt hle hlt)) id)
      | closed => exact fun h => by cases h

/-- With enough rounds and answers the worker gets to the end of the stream. -/
theorem Delimiting.not_running (hS : S.handlers = [pureHandler (getDelimiterCondition d) fd])
    (hwrite : ∀ n, S.eventfdWrite n = none) (hN : N < 2 ^ 31) (hfits : Fits d N bytes) {rounds : Nat}
    (hcuts : bytes.length < cuts.length) (hlong : bytes.length < rounds) :
    (conditionalBufferWorker S (connected S N bytes 0 (cuts.map .readable)) rounds).1 ≠ .running := by
  have htracks := (Delimiting.worker cuts hS hwrite hN hfits rounds).tracks
  have hreceived := congrArg List.length htracks.sent
  rw [List.length_append] at hreceived
  intro hrun
  rcases Delimiting.rounds_le hS hwrite hN hfits rounds hrun with hle | hle <;> omega

theorem Delimiting.queue_complete (hS : S.handlers = [pureHandler (getDelimiterCondition d) fd])
    (hwrite : ∀ n, S.eventfdWrite n = none) (hN : N < 2 ^ 31) (hfits : Fits d N bytes) {rounds : Nat}
    (hcuts : bytes.length < cuts.length) (hlong : bytes.length < rounds) :
    (conditionalBufferWorker S (connected S N bytes 0 (cuts.map .readable)) rounds).2.queue fd =
      (Delimited.splitAfter d bytes).1 := by
  have hdone := Delimiting.not_running hS hwrite hN hfits hcuts hlong
  have hrun : Delimiting S d fd N bytes cuts _ := .worker cuts hS hwrite hN hfits rounds
  generalize conditionalBufferWorker S _ rounds = w at hdone hrun ⊢
  cases hrun with
  | running => exact absurd rfl hdone
  | closed htracks hunread _ => exact ((queue_of_tracks hwrite hN hfits htracks).2 hunread).1

end SingleHandler

end SocketWrapper
