import SocketWrapper.Conditional.Lemmas.Reference
import SocketWrapper.Conditional.Lemmas.Framing
import SocketWrapper.Base.Lemmas.Lines
import SocketWrapper.Conditional.Lemmas.Closed
import SocketWrapper.Conditional.Lemmas.Foreign

/-!
# The worker as one thread

What the dispatch does compared with the reference, what the delimiter condition sees of the input, when
`SOCKET_CLOSED` is reported, and that fragmentation does not matter.
-/

namespace SocketWrapper

open ConditionalBufferedStream

/-! ## The dispatch and the reference -/

/-- The call does what the reference does, and asks no condition about anything but the buffer, exactly
if at every buffer that the reference looks at only the last handler may match. It removes, queues and
leaves the same exactly if at most one handler matches. -/
theorem processDataSendSignals_refines_iff {S : Setup} {hs : List ContractedHandler}
    {s : ConditionalBufferedStream} (hS : S.handlers = hs.map ContractedHandler.toHandler)
    (hv : s.stream.Valid) (hp : s.PostsSucceed S) :
    (Reference.Refines hs s (s.processDataSendSignals S s.contents) ↔
      ∀ y, Reference.LooksAt hs s.contents y → Reference.OnlyLastMatches hs y) ∧
    (Reference.SameOutcome hs s (s.processDataSendSignals S s.contents) ↔
      ∀ y, Reference.LooksAt hs s.contents y → Reference.OneMatch hs y) :=
  ⟨Reference.refines_iff hS hv hp, Reference.sameOutcome_iff hS hv hp⟩

/-- A handler for a delimiter. -/
def delimiterHandler (d : Byte) (fd : Fd) : ContractedHandler :=
  ⟨getDelimiterCondition d, fd, getDelimiterCondition_contract d⟩

/-- Handlers for lines, one for each descriptor, on a kernel that fails no write. -/
def lineSetup (fds : List Fd) (h : fds.Nodup) : Setup where
  handlers := (fds.map (delimiterHandler 10)).map ContractedHandler.toHandler
  fdsNodup := by simpa [Function.comp_def, delimiterHandler, ContractedHandler.toHandler] using h
  eventfdWrite _ := none

/-- A stream whose buffer holds `x`. -/
def holding (S : Setup) (x : List Byte) : ConditionalBufferedStream :=
  make S ⟨⟨⟨[], []⟩, 0, []⟩, x.length, x, x.length⟩

theorem nodup_three : ([3] : List Fd).Nodup := by decide

/-- The worker of a stream with a handler for lines, after a number of rounds; the socket is readable
whenever it is polled. -/
def lineWorker (size : Nat) (bytes : List Byte) (cuts : List Nat) (rounds : Nat) :
    WorkerStatus × ConditionalBufferedStream :=
  conditionalBufferWorker (lineSetup [3] nodup_three)
    (connected (lineSetup [3] nodup_three) size bytes 0 (cuts.map .readable)) rounds

/-- Handlers for a byte that the buffer does not have, and for lines. -/
def twoDelimiters : List ContractedHandler := [delimiterHandler 90 3, delimiterHandler 10 4]

theorem nodup_three_four : ([3, 4] : List Fd).Nodup := by decide

def twoDelimitersSetup : Setup where
  handlers := twoDelimiters.map ContractedHandler.toHandler
  fdsNodup := nodup_three_four
  eventfdWrite _ := none

/-- At two lines, at the second one and at the empty buffer only the last handler may match. -/
theorem onlyLastMatches_twoDelimiters :
    ∀ y, Reference.LooksAt twoDelimiters [97, 10, 98, 10] y → Reference.OnlyLastMatches twoDelimiters y := by
  have hlines : Reference.firstMatch twoDelimiters [97, 10, 98, 10] = some (delimiterHandler 10 4) := rfl
  have hline : Reference.firstMatch twoDelimiters [98, 10] = some (delimiterHandler 10 4) := rfl
  have hempty : Reference.firstMatch twoDelimiters [] = none := rfl
  rw [Reference.LooksAt.forall_of_some hlines]
  refine ⟨⟨by decide, by decide⟩, ?_⟩
  show ∀ y, Reference.LooksAt twoDelimiters [98, 10] y → Reference.OnlyLastMatches twoDelimiters y
  rw [Reference.LooksAt.forall_of_some hline]
  refine ⟨⟨by decide, by decide⟩, ?_⟩
  exact (Reference.LooksAt.forall_of_none hempty).mpr (Reference.onlyLastMatches_of_none hempty)

theorem processDataSendSignals_refines_twoDelimiters :
    Reference.Refines twoDelimiters (holding twoDelimitersSetup [97, 10, 98, 10])
        ((holding twoDelimitersSetup [97, 10, 98, 10]).processDataSendSignals twoDelimitersSetup
          [97, 10, 98, 10]) ∧
      ((holding twoDelimitersSetup [97, 10, 98, 10]).processDataSendSignals twoDelimitersSetup
        [97, 10, 98, 10]).2.queue 4 = [[97, 10], [98, 10]] := by
  have h := (processDataSendSignals_refines_iff (S := twoDelimitersSetup)
    (s := holding twoDelimitersSetup [97, 10, 98, 10]) rfl ⟨rfl, Nat.le_refl _⟩
    ⟨fun _ => rfl, rfl⟩).1.mpr onlyLastMatches_twoDelimiters
  exact ⟨h, by rfl⟩

/-- Two handlers for lines and one line in the buffer: the second handler is asked about the line that
the first has taken, and the pop throws. -/
theorem processDataSendSignals_two_lineHandlers :
    (processDataSendSignals (lineSetup [3, 4] (by decide))
        (holding (lineSetup [3, 4] (by decide)) [97, 10]) [97, 10]).1 =
      .threw (.outOfRange
        "the buffer does not contain enough data yet, should read 2 can read 0") ∧
    ¬ Reference.Refines [delimiterHandler 10 3, delimiterHandler 10 4]
      (holding (lineSetup [3, 4] (by decide)) [97, 10])
      (processDataSendSignals (lineSetup [3, 4] (by decide))
        (holding (lineSetup [3, 4] (by decide)) [97, 10]) [97, 10]) := by
  have hthrew : (processDataSendSignals (lineSetup [3, 4] (by decide))
      (holding (lineSetup [3, 4] (by decide)) [97, 10]) [97, 10]).1 =
      .threw (.outOfRange
        "the buffer does not contain enough data yet, should read 2 can read 0") := by rfl
  refine ⟨hthrew, fun href => ?_⟩
  rw [href.returned] at hthrew
  cases hthrew

/-! ## Delimiters -/

/-- For every stream of segments that fit into the buffer and every way in which the socket cuts it, the
worker never ends before the end of the stream; then it has queued exactly the segments and the buffer
holds exactly the tail. With enough answers from the socket it gets there. -/
theorem delimiter_segmentation {S : Setup} {d : Byte} {fd : Fd} {N : Nat} (bytes : List Byte)
    (hS : S.handlers = [pureHandler (getDelimiterCondition d) fd])
    (hwrite : ∀ n, S.eventfdWrite n = none) (hN : N < 2 ^ 31)
    (hsegments : ∀ seg ∈ (Delimited.splitAfter d bytes).1, seg.length ≤ N)
    (htail : (Delimited.splitAfter d bytes).2.length < N) (cuts : List Nat) (rounds : Nat) :
    let w := conditionalBufferWorker S
      (connected S N bytes 0 (cuts.map .readable)) rounds
    (w.1 = .running ∨ w.1 = .ended .SOCKET_CLOSED) ∧
    w.2.queue fd <+: (Delimited.splitAfter d bytes).1 ∧
    (w.1 = .ended .SOCKET_CLOSED →
      w.2.lastEx = .SOCKET_CLOSED ∧ w.2.stream.stream.socket.unread = [] ∧
      w.2.queue fd = (Delimited.splitAfter d bytes).1 ∧
      w.2.contents = (Delimited.splitAfter d bytes).2) ∧
    (bytes.length < cuts.length → bytes.length < rounds → w.1 = .ended .SOCKET_CLOSED) := by
  intro w
  have hfits : SingleHandler.Fits d N bytes := ⟨hsegments, htail⟩
  have hrun : SingleHandler.Delimiting S d fd N bytes cuts w :=
    .worker cuts hS hwrite hN hfits rounds
  have hdone : bytes.length < cuts.length → bytes.length < rounds → w.1 ≠ .running :=
    SingleHandler.Delimiting.not_running hS hwrite hN hfits
  obtain ⟨hqueued, hall⟩ := SingleHandler.queue_of_tracks hwrite hN hfits hrun.tracks
  generalize w = w at hrun hdone hqueued hall ⊢
  cases hrun with
  | running =>
      exact ⟨.inl rfl, hqueued, by simp, fun hcuts hlong => absurd rfl (hdone hcuts hlong)⟩
  | closed _ hunread hlast =>
      exact ⟨.inr rfl, hqueued, fun _ => ⟨hlast, hunread, hall hunread⟩, fun _ _ => rfl⟩

/-- Three segments, one of them as long as the buffer, in reads of one, two, one and three bytes. -/
theorem delimiter_segmentation_example :
    let w := lineWorker 3 [97, 10, 10, 98, 99, 10, 97] [0, 1, 0, 2, 0, 0, 0, 0] 8
    w.2.queue 3 = [[97, 10], [10], [98, 99, 10]] ∧ w.2.contents = [97] := by
  have hall := delimiter_segmentation (S := lineSetup [3] (by decide)) (d := 10) (N := 3)
    [97, 10, 10, 98, 99, 10, 97] rfl (fun _ => rfl) (by decide) (by decide) (by decide)
    [0, 1, 0, 2, 0, 0, 0, 0] 8
  exact (hall.2.2.1 (hall.2.2.2 (by decide) (by decide))).2.2

/-! ## The two readers of lines -/

/-- A stream of segments that fit into the buffer, read by `readUntilDelimiter` and by a worker, each with
its own fragmentation. The `k`-th call that returns and the `k`-th segment delivered are equal exactly if
there is no delimiter in the stream, so that no call returns; the segment is the result and the delimiter.
(An allocated block is smaller than 2^63 bytes; a condition's result is an `int`.) -/
theorem delimiter_readers_agree_iff {S : Setup} {d : Byte} {fd : Fd} {N : Nat} (bytes : List Byte)
    (hS : S.handlers = [pureHandler (getDelimiterCondition d) fd]) (hN : N < 2 ^ 63)
    (hsegments : ∀ seg ∈ (Delimited.splitAfter d bytes).1, seg.length ≤ N)
    (htail : (Delimited.splitAfter d bytes).2.length < N) (cuts cuts' : List Nat)
    (hcuts : bytes.length < cuts.length) :
    let b := BufferedStream.cutStream N bytes cuts
    let w := conditionalBufferWorker S (connected S N bytes 0 (cuts'.map .readable))
    ((∀ k r, b.line d k = .returned r → ∃ rounds, ((w rounds).2.queue fd)[k]? = some r) ↔ d ∉ bytes) ∧
    (N < 2 ^ 31 → (∀ n, S.eventfdWrite n = none) → bytes.length < cuts'.length →
      ∀ k r, b.line d k = .returned r → ∃ rounds, ((w rounds).2.queue fd)[k]? = some (r ++ [d])) := by
  intro b w
  have hflow := BufferedStream.flowing_cutStream N hcuts
  have hsplit := BufferedStream.split_cutStream d N bytes cuts
  have hrem : b.remaining = bytes := BufferedStream.remaining_cutStream
  have hline (k : Nat) (r : List Byte) (h : b.line d k = .returned r) :
      (Delimited.splitAfter d bytes).1[k]? = some (r ++ [d]) :=
    BufferedStream.segment_of_line hflow hsplit hsegments h
  refine ⟨⟨fun hagree hmem => ?_, fun hd k r h => ?_⟩, fun hN hwrite hcuts' k r h => ?_⟩
  · obtain ⟨p, rest, hp, hfront, hfirst⟩ := hflow.first_line hsplit hsegments
      BufferedStream.contents_cutStream (hrem.symm ▸ hmem)
    obtain ⟨rounds, hqueue⟩ := hagree 0 p hfirst
    exact SingleHandler.queue_head_ne hp hS hN (hrem.symm.trans hfront) 0 _ rounds hqueue
  · have hseg := List.mem_of_getElem? (hline k r h)
    refine absurd ?_ hd
    rw [← hrem, ← hsplit.flatten]
    exact List.mem_append_left _ (List.mem_flatten.mpr ⟨_, hseg, by simp⟩)
  · refine ⟨bytes.length + 1, ?_⟩
    rw [SingleHandler.Delimiting.queue_complete hS hwrite hN ⟨hsegments, htail⟩ hcuts' (Nat.lt_succ_self _)]
    exact hline k r h

theorem delimiter_readers_agree_example :
    ∃ rounds, ((lineWorker 4 [97, 98, 10] [0, 1, 0, 0] rounds).2.queue 3)[0]? = some ([97, 98] ++ [10]) :=
  (delimiter_readers_agree_iff (S := lineSetup [3] (by decide)) (d := 10) (N := 4) [97, 98, 10] rfl
    (by decide) (by decide) (by decide) [2, 0, 0, 0] [0, 1, 0, 0] (by decide)).2 (by decide)
    (fun _ => rfl) (by decide) 0 [97, 98] (by decide)

/-- `"a\n"`, byte by byte: one reader gives `"a"`, the other `"a\n"`. -/
theorem delimiter_readers_differ :
    (BufferedStream.cutStream 4 [97, 10] [0, 0, 0]).line 10 0 = .returned [97] ∧
      ((lineWorker 4 [97, 10] [0, 0, 0] 3).2.queue 3)[0]? = some [97, 10] ∧
      ¬ ∀ k r, (BufferedStream.cutStream 4 [97, 10] [0, 0, 0]).line 10 k = .returned r →
        ∃ rounds, ((lineWorker 4 [97, 10] [0, 0, 0] rounds).2.queue 3)[k]? = some r := by
  refine ⟨by decide, by decide +kernel, fun hagree => ?_⟩
  obtain ⟨rounds, hqueue⟩ := hagree 0 [97] (by decide)
  exact SingleHandler.queue_head_ne (d := 10) (p := [97]) (by decide) rfl (by decide)
    (show ([97, 10] : List Byte) = [97] ++ 10 :: [] from rfl) 0 _ rounds hqueue

/-! ## `SOCKET_CLOSED` -/

/-- In every state that operations reach, an operation reports `SOCKET_CLOSED` at the end of the stream
only, exactly if the buffer has room for what it asks for (or the end has been seen before). A worker
records it at the end of the stream only, exactly if its round begins with room in the buffer; a run
in which every round does never records it falsely. -/
theorem closed_means_end_iff (S : Setup) (size stopEvent : Nat) (bytes : List Byte)
    (answers : List Answer) :
    (∀ (steps : List (BufferedStream.Operation × List Byte × List Answer))
        (op : BufferedStream.Operation),
      let b := steps.foldl BufferedStream.operate
        (BufferedStream.make ⟨⟨bytes, []⟩, stopEvent, answers⟩ size)
      b.ClosedMeansEnd op ↔ b.HasRoom op ∨ b.stream.socket.EndOfStream) ∧
    (∀ rounds,
      let w := conditionalBufferWorker S
        (connected S size bytes stopEvent answers) rounds
      w.1 = .running →
        (RecordsClosedAtEnd S w.2 ↔ w.2.contents.length < w.2.stream.streamBufferSize)) ∧
    (∀ rounds,
      let w := conditionalBufferWorker S
        (connected S size bytes stopEvent answers)
      (∀ k < rounds, (w k).1 = .running →
        (w k).2.contents.length < (w k).2.stream.streamBufferSize) →
      (w rounds).2.lastEx = .SOCKET_CLOSED → (w rounds).2.stream.stream.socket.EndOfStream) := by
  refine ⟨fun steps op => ?_, fun rounds => ?_, fun rounds => ?_⟩
  · exact BufferedStream.closedMeansEnd_iff ((BufferedStream.Valid.make _ _).operate steps) op
  · intro w hrun
    have hopen : Open w := .worker bytes size stopEvent answers rounds
    exact recordsClosedAtEnd_iff hopen.valid (hopen.lastEx hrun) (hopen.unended hrun)
  · intro w hroom hlast
    exact endOfStream_of_room _ (Open.worker bytes size stopEvent answers 0) rounds hroom hlast

/-- A buffer of one byte and a peer that has sent two: the second round asks for 0 bytes, and the worker
takes the answer for the end of the stream. -/
theorem closed_without_end :
    let w := lineWorker 1 [97, 98] [0, 0] 2
    w.2.lastEx = .SOCKET_CLOSED ∧ ¬ w.2.stream.stream.socket.EndOfStream ∧
      w.2.stream.stream.socket.unread = [98] := by
  refine ⟨by decide +kernel, ?_, by decide +kernel⟩
  rw [Socket.EndOfStream]
  decide +kernel

/-! ## Fragmentation -/

/-- Two workers with the same handler, whose condition does not revise a match when more data arrives,
have done the same once they have received the same bytes, whatever the socket did and however large
their buffers are. -/
theorem fragmentation_irrelevant {S : Setup} {condition : List Byte → Int32} {fd : Fd}
    (hS : S.handlers = [pureHandler condition fd])
    (hstable : ∀ x y, condition x ≠ 0 → condition (x ++ y) = condition x)
    {bytes : List Byte} {size size' stopEvent stopEvent' : Nat} {answers answers' : List Answer}
    {rounds rounds' : Nat} {w w' : WorkerStatus × ConditionalBufferedStream}
    (hw : conditionalBufferWorker S (connected S size bytes stopEvent answers) rounds = w)
    (hw' : conditionalBufferWorker S (connected S size' bytes stopEvent' answers') rounds' = w')
    (hdone : w.2.stream.stream.socket.unread = []) (hdone' : w'.2.stream.stream.socket.unread = []) :
    w.2.removals = w'.2.removals ∧ w.2.contents = w'.2.contents := by
  have hstable := SingleHandler.prefixStable (S := S) hstable
  have htracks : SingleHandler.Tracks S condition fd bytes w.2 :=
    hw ▸ (SingleHandler.Segmenting.worker hS hstable size stopEvent answers rounds).tracks
  have htracks' : SingleHandler.Tracks S condition fd bytes w'.2 :=
    hw' ▸ (SingleHandler.Segmenting.worker hS hstable size' stopEvent' answers' rounds').tracks
  have hreceived : w.2.stream.received = w'.2.stream.received := by
    have hsent := htracks.sent
    have hsent' := htracks'.sent
    rw [hdone, List.append_nil] at hsent
    rw [hdone', List.append_nil] at hsent'
    rw [hsent, hsent']
  have hdrained : SingleHandler.drained S condition w.2 = SingleHandler.drained S condition w'.2 := by
    rw [SingleHandler.drained, SingleHandler.drained, hreceived]
  exact ⟨by rw [htracks.removals, htracks'.removals, hdrained],
    by rw [htracks.contents, htracks'.contents, hdrained]⟩

theorem fragmentation_irrelevant_example :
    (lineWorker 4 [97, 10, 10, 98] [3] 1).2.removals =
      (lineWorker 2 [97, 10, 10, 98] [0, 1, 2] 3).2.removals :=
  (fragmentation_irrelevant (S := lineSetup [3] (by decide)) rfl
    (getDelimiterCondition_prefixStable 10) (lineWorker.eq_1 4 [97, 10, 10, 98] [3] 1).symm
    (lineWorker.eq_1 2 [97, 10, 10, 98] [0, 1, 2] 3).symm (by decide +kernel) (by decide +kernel)).1

/-! ## Descriptors of others -/

/-- On a descriptor that is not one of the stream's, `readBlocking` throws `SOCKET_INVALID_CONDITION` and
changes nothing exactly if its `::poll` succeeds and finds something to read there, of which `::read` then
gets nothing: a socket at its end, or one that listens. -/
theorem readBlocking_refuses_iff (p : Process) {fd : Fd} (hfd : ¬ p.stream.setup.Registered fd)
    (timeoutMs : Int) (pollFails : Bool) (errno : Nat) :
    p.Refuses fd timeoutMs pollFails errno ↔
      pollFails = false ∧ 0 ≤ fd ∧ (p.descriptor fd).NothingToTake :=
  Process.refuses_iff hfd

theorem receivedData_lineWorker (fd : Fd) :
    (lineWorker 8 [97, 10] [5] 1).2.receivedDataPerCondition fd =
      Function.update (fun fd => if (lineSetup [3] (by decide)).Registered fd then some [] else none) 3
        (some [[97, 10]]) fd := rfl

/-- A stream with a line in the queue of its descriptor 3. -/
def lineWaiting : OpenStream where
  setup := lineSetup [3] nodup_three
  state := (lineWorker 8 [97, 10] [5] 1).2
  entries fd := by
    rw [receivedData_lineWorker]
    by_cases h : fd = 3
    · subst h
      decide
    · have hfd : ¬ (lineSetup [3] (by decide)).Registered fd := by
        simp [Setup.Registered, lineSetup, delimiterHandler, ContractedHandler.toHandler, h]
      simp [h, hfd]

/-- A stream with descriptor 4, the one above, and a socket that the peer has closed. -/
def twoStreams : Process :=
  ⟨.connected (lineSetup [4] (by decide)) 8 [] 0 [], [lineWaiting],
    fun fd => if fd = 5 then .socket [] true else .closed⟩

theorem readBlocking_refuses_atEnd : twoStreams.Refuses 5 (-1) false 0 :=
  (readBlocking_refuses_iff twoStreams (by decide) (-1) false 0).mpr (by decide)

/-- The call takes the token of the other stream, whose line stays in the queue: a call there waits. -/
theorem readBlocking_takes_token :
    let r := twoStreams.readBlocking 3 (-1) false 0
    r.1 = .threw (.socket (.ofType .SOCKET_INVALID_CONDITION)) ∧
      twoStreams.others.map (fun o => o.state.eventFds.counter 3) = [1] ∧
      r.2.others.map (fun o => o.state.eventFds.counter 3) = [0] ∧
      r.2.others.map (fun o => o.state.receivedDataPerCondition 3) = [some [[97, 10]]] ∧
      r.2.others.map (fun o => (o.state.readBlocking 3 (-1) false 0).1) = [.waiting] ∧
      ¬ twoStreams.Refuses 3 (-1) false 0 := by
  refine ⟨by decide, by decide, by decide, by decide, by decide, fun h => ?_⟩
  have hcounters := congrArg (fun p => p.others.map fun o => o.state.eventFds.counter 3) h.2
  exact absurd hcounters (by decide)

end SocketWrapper
