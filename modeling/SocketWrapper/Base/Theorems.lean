import SocketWrapper.Base.Lemmas.Checked
import SocketWrapper.Base.Lemmas.Lines
import SocketWrapper.Base.Lemmas.Overloads

/-!
# Reading from a `BufferedStream`

What all sequences of reads have in common, and where the single operations fall short of what is
expected of them.
-/

namespace SocketWrapper

open BufferedStream

/-! ## All operations -/

/-- Whatever the capacity, the kernel and the order of the calls: what has been handed out, what is in
the buffer and what has not been read from the socket are, in this order, the bytes sent. A `read(n)`
that returns has given `n` bytes, and a `readUntilDelimiter(d)` that returns none that is `d`. -/
theorem bytes_conserved (sent : List Byte) (bufferSize : Nat) (events : List Event) :
    let s := (Session.start sent bufferSize).run events
    s.handed ++ s.object.contents ++ s.object.stream.socket.unread = sent ∧
      (∀ n timeoutMs bytes, (.read n timeoutMs, .returned bytes) ∈ s.calls → bytes.length = n) ∧
      ∀ d bytes, (.readUntilDelimiter d, .returned bytes) ∈ s.calls → d ∉ bytes := by
  intro s
  have hgood := (Session.good_start sent bufferSize).run events
  refine ⟨?_, fun n timeoutMs bytes hcall => hgood.promised _ hcall,
    fun d bytes hcall => hgood.promised _ hcall⟩
  rw [List.append_assoc]
  exact hgood.bytes

/-- A read that times out leaves its bytes in the buffer; after a move, a line is read and two bytes
more. -/
example :
    let s := (Session.start [97, 98, 10, 99, 100] 4).run
      [.call (.read 4 5) [.readable 1, .quiet], .moveConstruct,
        .call (.readUntilDelimiter 10) [.readable 1], .call (.read 2 5) [.readable 0]]
    s.calls.map Prod.snd = [.socketError .SOCKET_READ_TIMEOUT 0, .returned [97, 98],
      .returned [99, 100]] := by
  decide

/-- The object after `events`, with the kernel giving `answers` from now on. -/
def reached (sent : List Byte) (bufferSize : Nat) (events : List Event) (answers : List Answer) :
    BufferedStream :=
  let b := ((Session.start sent bufferSize).run events).object
  b.withFuture b.stream.socket.unread answers

theorem valid_reached (sent : List Byte) (bufferSize : Nat) (events : List Event) (answers : List Answer) :
    (reached sent bufferSize events answers).Valid :=
  ((Session.good_start sent bufferSize).run events).valid.withFuture

/-! ## The buffer -/

/-- Whatever the calls, their arguments and the socket: nothing wraps around below zero, every range is
inside the block and the offset inside the buffer, exactly if `calloc` has returned a block or none is
needed, that is if the buffer is to have no bytes or no call reads from the socket. -/
theorem buffer_valid_iff (allocated : Bool) (stream : Stream) (bufferSize : Nat)
    (calls : List (Stream × Call)) :
    Checked.StaysValid (Checked.make allocated stream bufferSize) calls ↔
      allocated = true ∨ bufferSize = 0 ∨ ∀ c ∈ calls, ¬ c.2.ReadsSocket bufferSize := by
  cases allocated with
  | true =>
      have hvalid : (Checked.make true stream bufferSize).Valid := Valid.make stream bufferSize
      exact ⟨fun _ => .inl rfl, fun _ => Checked.staysValid_of_valid hvalid calls⟩
  | false =>
      rcases Nat.eq_zero_or_pos bufferSize with rfl | hsize
      · have hvalid : (Checked.make false stream 0).Valid := ⟨rfl, Nat.le_refl _⟩
        exact ⟨fun _ => .inr (.inl rfl), fun _ => Checked.staysValid_of_valid hvalid calls⟩
      · rw [Checked.staysValid_unallocated_iff (Checked.unallocated_make stream) hsize]
        refine ⟨fun hcalls => .inr (.inr hcalls), fun h => ?_⟩
        rcases h with hallocated | hzero | hcalls
        · cases hallocated
        · omega
        · exact hcalls

/-- A buffer of 2⁶⁴ - 1 bytes, which `calloc` refuses. The first read from the socket is given the null
pointer for as many bytes. -/
theorem buffer_without_block :
    let b := Checked.make false ⟨⟨[97], []⟩, 0, [.readable 0]⟩ (2 ^ 64 - 1)
    Checked.readAvailableDataIntoBuffer b (-1) = .error .outside ∧
      ¬ Checked.StaysValid b [(b.stream, .readAvailableDataIntoBuffer (-1))] := by
  intro b
  have hread : Checked.readAvailableDataIntoBuffer b (-1) = .error .outside :=
    Checked.readAvailable_unallocated (Checked.unallocated_make _) (by decide)
  refine ⟨hread, fun h => ?_⟩
  obtain ⟨b', hrun, -⟩ := h _ List.prefix_rfl
  have hafter : Checked.after b (.readAvailableDataIntoBuffer (-1)) = .error .outside := by
    rw [Checked.after, hread]
    rfl
  have hnone : Checked.run b [(b.stream, .readAvailableDataIntoBuffer (-1))] = .error .outside := by
    show (Checked.after b _).bind _ = _
    rw [hafter]
    rfl
  rw [hnone] at hrun
  cases hrun

/-! ## Lines -/

/-- The peer sends segments that fit into the buffer and closes; the socket is readable whenever it is
polled. Then the calls return the segments one by one and none waits for more than it needs exactly if
no call begins with a delimiter in the buffer. The segments alone, all of them, come out exactly if every
call that should return one begins with room in the buffer and with bytes to come. -/
theorem lines_whatever_cuts_iff (d : Byte) (N : Nat) (bytes : List Byte) (cuts : List Nat)
    (hsegments : ∀ seg ∈ (Delimited.splitAfter d bytes).1, seg.length ≤ N)
    (htail : (Delimited.splitAfter d bytes).2.length < N) (hcuts : bytes.length < cuts.length) :
    let b := cutStream N bytes cuts
    let segments := (Delimited.splitAfter d bytes).1
    (DeliversLines d b segments ∧ NeedsNoMore d b segments ↔
      ∀ k < segments.length, d ∉ (b.beforeLine d k).contents) ∧
    (DeliversLines d b segments ↔ ∀ k < segments.length,
      (b.beforeLine d k).contents.length < (b.beforeLine d k).streamBufferSize ∧
      (b.beforeLine d k).stream.socket.unread ≠ []) := by
  intro b segments
  have hflow := flowing_cutStream N hcuts
  have hsplit := split_cutStream d N bytes cuts
  have hdelivers := deliversLines_iff hflow hsplit hsegments htail
  refine ⟨⟨fun h => (needsNoMore_iff hflow.valid hsplit).mp h.2, fun h => ?_⟩, hdelivers⟩
  exact ⟨hdelivers.mpr (supplied_of_clean hflow hsplit hsegments h),
    (needsNoMore_iff hflow.valid hsplit).mpr h⟩

/-- Reads of two bytes, each of which ends where a segment does. -/
theorem lines_whatever_cuts_twoByTwo :
    DeliversLines 10 (cutStream 2 [97, 10, 98, 10] [1, 1, 0, 0, 0]) [[97, 10], [98, 10]] := by
  refine ((lines_whatever_cuts_iff 10 2 [97, 10, 98, 10] [1, 1, 0, 0, 0] (by decide) (by decide)
    (by decide)).2).mpr ?_
  decide

/-- Both segments arrive in one read: the second is in the buffer when the end of the stream is reported. -/
theorem line_lost_at_end :
    let b := cutStream 8 [97, 10, 98, 10] [3, 0, 0, 0, 0]
    b.line 10 0 = .returned [97] ∧ (b.beforeLine 10 1).contents = [98, 10] ∧
      b.line 10 1 = .socketError .SOCKET_CLOSED 0 ∧
      ¬ DeliversLines 10 b (Delimited.splitAfter 10 [97, 10, 98, 10]).1 := by
  have hlost : (cutStream 8 [97, 10, 98, 10] [3, 0, 0, 0, 0]).line 10 1 =
      .socketError .SOCKET_CLOSED 0 := by decide
  refine ⟨by decide, by decide, hlost, fun h => ?_⟩
  have hline := h.1 1 [98] (by decide)
  rw [hlost] at hline
  cases hline

/-- In every state that the reads and moves lead to, and whatever the kernel does, a full buffer is
reported as it should be exactly if it is not reported from the start with the delimiter in it. -/
theorem full_buffer_reported_iff (sent : List Byte) (bufferSize : Nat) (events : List Event)
    (answers : List Answer) (d : Byte) :
    let b := reached sent bufferSize events answers
    ReportsFull d b ↔ (b.contents.length = b.streamBufferSize → d ∉ b.contents) :=
  reportsFull_iff (valid_reached sent bufferSize events answers) d

/-- A search for `z` fills the buffer. The search for a newline that follows fails, with two newlines in
the buffer. -/
theorem full_buffer_with_delimiter :
    let b := reached [97, 10, 98, 10] 4 [.call (.readUntilDelimiter 122) [.readable 3]] []
    b.contents = [97, 10, 98, 10] ∧
      b.readUntilDelimiter 10 =
        (.threw (.logicError "could not find delimiter, even though the buffer is full"), b) ∧
      ¬ ReportsFull 10 b := by
  refine ⟨by decide, by decide, fun h => ?_⟩
  exact (h "could not find delimiter, even though the buffer is full" (by decide)).2.1 (by decide)

/-! ## The two overloads of `read` -/

/-- In every such state the overloads agree about `n` bytes exactly if they are not all in the buffer and
it could hold them. -/
theorem overloads_agree_iff (sent : List Byte) (bufferSize : Nat) (events : List Event)
    (answers : List Answer) (n : Nat) (timeoutMs : Int) :
    let b := reached sent bufferSize events answers
    OverloadsAgree b n timeoutMs ↔ b.contents.length < n ∧ n ≤ b.streamBufferSize :=
  overloadsAgree_iff (valid_reached sent bufferSize events answers) n timeoutMs

/-- One byte is in the buffer and no more arrives in time: one overload returns it, the other reports a
timeout. Three bytes from a buffer for two: one refuses, the other reads. -/
theorem overloads_differ :
    let b := reached [97] 2 [.call (.read 2 5) [.readable 0, .quiet]] [.quiet]
    b.contents = [97] ∧ (b.read 1 5).1 = .returned [97] ∧
      (b.readInto 1 1 5).1 = .socketError .SOCKET_READ_TIMEOUT 0 ∧ ¬ OverloadsAgree b 1 5 ∧
      (b.read 3 5).1 = .threw (.logicError "buffer is to small for the requested read") ∧
      (b.readInto 3 3 5).1 = .socketError .SOCKET_READ_TIMEOUT 0 := by
  refine ⟨by decide, by decide, by decide, fun h => ?_, by decide, by decide⟩
  exact absurd h.outcome (by decide)

end SocketWrapper
