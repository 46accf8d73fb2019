import SocketWrapper.Base.Lemmas.Buffer
import SocketWrapper.Base.Operation

/-!
# When `SOCKET_CLOSED` is thrown

`Stream::read` takes every 0 from `::read` for the end of the stream. A `::read` asks for as many
bytes as the buffer has room for, so with a full buffer it returns 0 whatever the peer does.
-/

namespace SocketWrapper

theorem Socket.EndOfStream.mono {s s' : Socket} (h : s.EndOfStream) (hcalls : s.calls ⊆ s'.calls) :
    s'.EndOfStream := by
  obtain ⟨c, hc, hrequested, hempty⟩ := h
  exact ⟨c, hcalls hc, hrequested, hempty⟩

/-- A `::read` that asked for nothing, or that brought bytes, is not the end of the stream. -/
theorem Socket.EndOfStream.of_nonempty {s s' : Socket} {c : ReadCall} (hc : c.requested = 0 ∨ c.bytes ≠ [])
    (hcalls : s'.calls = s.calls ++ [c]) (h : s'.EndOfStream) : s.EndOfStream := by
  obtain ⟨c', hmem, hrequested, hempty⟩ := h
  rw [hcalls, List.mem_append, List.mem_singleton] at hmem
  rcases hmem with hmem | rfl
  · exact ⟨c', hmem, hrequested, hempty⟩
  · rcases hc with hc | hc
    · omega
    · exact absurd hempty hc

namespace BufferedStream

variable {b b' : BufferedStream} {timeoutMs : Int} {o : Outcome Nat}

theorem Refill.endOfStream {r : Outcome Nat × BufferedStream} (h : Refill b timeoutMs r)
    (hroom : b.contents.length < b.streamBufferSize) (hclosed : r.1.ThrewType .SOCKET_CLOSED) :
    r.2.stream.socket.EndOfStream := by
  cases h with
  | data => exact absurd hclosed Outcome.not_threwType_returned
  | closed _ _ _ _ hcalls =>
      refine ⟨⟨b.streamBufferSize - b.contents.length, []⟩, ?_, Nat.sub_pos_of_lt hroom, rfl⟩
      rw [hcalls]
      exact List.mem_append_right _ (List.mem_singleton.mpr rfl)
  | failed _ _ _ hfails =>
      rw [Outcome.threwType_socket, SocketException.exceptionType_withErrno] at hclosed
      subst hclosed
      cases hfails
  | waiting => exact absurd hclosed Outcome.not_threwType_waiting

theorem Refill.refilled {r : Outcome Nat × BufferedStream} (h : Refill b timeoutMs r) :
    Refilled b r.2 := by
  cases h <;> assumption

theorem Refill.calls {r : Outcome Nat × BufferedStream} (h : Refill b timeoutMs r) :
    b.stream.socket.calls ⊆ r.2.stream.socket.calls := by
  cases h with
  | data _ _ _ _ _ hcalls _ => exact hcalls ▸ List.subset_append_left _ _
  | closed _ _ _ _ hcalls => exact hcalls ▸ List.subset_append_left _ _
  | failed _ _ hsocket _ => exact fun c hc => hsocket ▸ hc
  | waiting _ _ hsocket _ _ _ => exact fun c hc => hsocket ▸ hc

/-- What a call of one of the reading operations guarantees. That `SOCKET_CLOSED` means the end of the
stream may depend on a condition. -/
structure Honest (p : Prop) {α : Type} (b : BufferedStream) (r : Outcome α × BufferedStream) : Prop where
  valid : r.2.Valid
  size : r.2.streamBufferSize = b.streamBufferSize
  calls : b.stream.socket.calls ⊆ r.2.stream.socket.calls
  closed : p → r.1.ThrewType .SOCKET_CLOSED → r.2.stream.socket.EndOfStream

variable {p : Prop}

theorem Honest.popFromBuffer (hb : b.Valid) (n : Nat) : Honest p b (b.popFromBuffer n) := by
  rcases Nat.lt_or_ge b.contents.length n with h | h
  · obtain ⟨what, hpop⟩ := popFromBuffer_of_lt hb h
    rw [hpop]
    exact ⟨hb, rfl, fun _ hc => hc, fun _ hc => absurd hc Outcome.not_threwType_outOfRange⟩
  · obtain ⟨b', hpop, hp⟩ := popFromBuffer_of_le hb h
    rw [hpop]
    exact ⟨hp.valid, hp.size, fun c hc => hp.stream ▸ hc,
      fun _ hc => absurd hc Outcome.not_threwType_returned⟩

theorem Honest.andThen {α β : Type} {r : Outcome α × BufferedStream}
    {k : α → BufferedStream → Outcome β × BufferedStream} (h : Honest p b r)
    (hk : ∀ a b', b'.Valid → b'.streamBufferSize = b.streamBufferSize → Honest p b' (k a b')) :
    Honest p b (Outcome.andThen r k) := by
  obtain ⟨o, b'⟩ := r
  cases o with
  | returned a =>
      have h' := hk a b' h.valid h.size
      exact ⟨h'.valid, h'.size.trans h.size, fun c hc => h'.calls (h.calls hc), h'.closed⟩
  | threw e =>
      refine ⟨h.valid, h.size, h.calls, ?_⟩
      rintro hp ⟨ex, hex, ht⟩
      cases hex
      exact h.closed hp ⟨ex, rfl, ht⟩
  | waiting => exact ⟨h.valid, h.size, h.calls, fun _ hc => absurd hc Outcome.not_threwType_waiting⟩

theorem Honest.refill (hb : b.Valid) (hroom : p → b.contents.length < b.streamBufferSize) :
    Honest p b (b.readAvailableDataIntoBuffer timeoutMs) :=
  have h := BufferedStream.refill hb timeoutMs
  ⟨h.refilled.valid, h.refilled.size, h.calls, fun hp => h.endOfStream (hroom hp)⟩

theorem Honest.fillLoop {bytes : Nat} (rounds : Nat) (hb : b.Valid)
    (hbytes : p → bytes ≤ b.streamBufferSize) : Honest p b (fillLoop bytes timeoutMs rounds b) := by
  induction rounds generalizing b with
  | zero => exact ⟨hb, rfl, fun _ hc => hc, fun _ hc => absurd hc Outcome.not_threwType_returned⟩
  | succ rounds ih =>
      rw [BufferedStream.fillLoop]
      split
      · rename_i hlt
        have hroom : p → b.contents.length < b.streamBufferSize := by
          intro hp
          rw [hb.length_contents]
          exact Nat.lt_of_lt_of_le hlt (hbytes hp)
        exact (Honest.refill hb hroom).andThen fun n b' hb' hsize => ih hb' (hsize.symm ▸ hbytes)
      · exact ⟨hb, rfl, fun _ hc => hc, fun _ hc => absurd hc Outcome.not_threwType_returned⟩

theorem Honest.read (hb : b.Valid) (n : Nat) : Honest p b (b.read n timeoutMs) := by
  rw [BufferedStream.read]
  split
  · exact ⟨hb, rfl, fun _ hc => hc, fun _ hc => absurd hc Outcome.not_threwType_logicError⟩
  · rename_i hn
    exact (Honest.fillLoop n hb fun _ => Nat.not_lt.mp hn).andThen
      fun _ b' hb' _ => .popFromBuffer hb' n

/-- With room for a byte now and room for `min_bytes_to_read` in all. -/
theorem Honest.readInto (hb : b.Valid) {most least : Nat}
    (hroom : p → b.contents.length < b.streamBufferSize ∧ least ≤ b.streamBufferSize) :
    Honest p b (b.readInto most least timeoutMs) :=
  (Honest.refill hb fun hp => (hroom hp).1).andThen fun _ _ hb' hsize =>
    (Honest.fillLoop least hb' fun hp => hsize.symm ▸ (hroom hp).2).andThen fun _ _ hb'' _ =>
      .popFromBuffer hb'' _

theorem Valid.dropDelimited (hb : b.Valid) {pos : Nat} (h : pos + 1 ≤ b.contents.length) :
    Popped b (pos + 1) { b with
      bufferWriteOffset := sizeSub b.bufferWriteOffset ((b.streamBuffer.take pos).length + 1)
      streamBuffer := FlatMemory.moveToFront b.streamBuffer (pos + 1)
        (sizeSub b.bufferWriteOffset ((b.streamBuffer.take pos).length + 1)) } := by
  obtain ⟨b', hpop, hp⟩ := popFromBuffer_of_le hb h
  rw [hb.length_contents] at h
  have hblock : b.bufferWriteOffset ≤ b.streamBuffer.length := hb.length_eq ▸ hb.offset_le
  have htake : (b.streamBuffer.take pos).length + 1 = (b.streamBuffer.take (pos + 1)).length := by
    simp only [List.length_take]
    omega
  rw [BufferedStream.popFromBuffer, if_neg (Nat.not_lt.mpr h)] at hpop
  rw [htake]
  exact (Prod.mk.inj hpop).2 ▸ hp

theorem Honest.readUntilDelimiterLoop (d : Byte) (rounds : Nat) (hb : b.Valid) :
    Honest p b (readUntilDelimiterLoop d rounds b) := by
  induction rounds generalizing b with
  | zero => exact ⟨hb, rfl, fun _ hc => hc, fun _ hc => absurd hc Outcome.not_threwType_logicError⟩
  | succ rounds ih =>
      rw [BufferedStream.readUntilDelimiterLoop]
      split
      · rename_i hlt
        have hroom : b.contents.length < b.streamBufferSize := by rwa [hb.length_contents]
        refine (Honest.refill hb fun _ => hroom).andThen ?_
        intro n b' hb' hsize
        split
        · rename_i pos hpos
          have hlt : pos < b'.contents.length := (List.findIdx?_eq_some_iff_getElem.mp hpos).1
          have hp := hb'.dropDelimited hlt
          exact ⟨hp.valid, hp.size, fun c hc => hp.stream ▸ hc,
            fun _ hc => absurd hc Outcome.not_threwType_returned⟩
        · exact ih hb'
      · exact ⟨hb, rfl, fun _ hc => hc, fun _ hc => absurd hc Outcome.not_threwType_logicError⟩

theorem Honest.readUntilDelimiter (hb : b.Valid) (d : Byte) : Honest p b (b.readUntilDelimiter d) :=
  Honest.readUntilDelimiterLoop d _ hb

/-! ## Sequences of operations -/

variable {op : Operation} {unread : List Byte} {answers : List Answer}

theorem Valid.withFuture (hb : b.Valid) : (b.withFuture unread answers).Valid :=
  ⟨hb.length_eq, hb.offset_le⟩

theorem Honest.perform (hb : b.Valid) (op : Operation) : Honest (HasRoom b op) b (b.perform op) := by
  cases op with
  | readUntilDelimiter d => exact .readUntilDelimiter hb d
  | read n timeoutMs => exact .read hb n
  | readInto most least timeoutMs => exact .readInto hb id

/-- A readable socket is taken for closed if the buffer is full. -/
theorem refill_full (timeoutMs : Int) (hb : b.Valid)
    (hfull : b.contents.length = b.streamBufferSize) {n : Nat}
    {rest : List Answer} (hanswers : b.stream.answers = .readable n :: rest) :
    ∃ b', b.readAvailableDataIntoBuffer timeoutMs = (.socketError .SOCKET_CLOSED 0, b') ∧
      b'.stream.socket.calls = b.stream.socket.calls ++ [⟨0, []⟩] := by
  have hroom : sizeSub b.streamBufferSize b.bufferWriteOffset = 0 := by
    rw [← hfull, hb.length_contents, sizeSub_of_le (Nat.le_refl _), Nat.sub_self]
  refine ⟨{ b with stream := ⟨⟨b.stream.socket.unread, b.stream.socket.calls ++ [⟨0, []⟩]⟩,
    b.stream.stopEvent, rest⟩ }, ?_, rfl⟩
  simp [readAvailableDataIntoBuffer, hroom, Stream.read, hanswers, Stream.readLoop, Socket.read]

theorem refill_fills (timeoutMs : Int) (hb : b.Valid)
    (hroom : b.contents.length < b.streamBufferSize) {n : Nat}
    {rest : List Answer} (hanswers : b.stream.answers = .readable n :: rest)
    (hn : b.streamBufferSize ≤ n) (hunread : b.streamBufferSize ≤ b.stream.socket.unread.length) :
    ∃ b' bytes, b.readAvailableDataIntoBuffer timeoutMs = (.returned bytes.length, b') ∧
      Refilled b b' ∧ b'.contents.length = b'.streamBufferSize ∧ b'.stream.answers = rest ∧
      bytes ≠ [] ∧ b'.stream.socket.calls =
        b.stream.socket.calls ++ [⟨b.streamBufferSize - b.contents.length, bytes⟩] := by
  have hsize : sizeSub b.streamBufferSize b.bufferWriteOffset =
      b.streamBufferSize - b.contents.length := by
    rw [sizeSub_of_le hb.offset_le, hb.length_contents]
  have hmin : min (b.streamBufferSize - b.contents.length) (n + 1) =
      b.streamBufferSize - b.contents.length := by omega
  have hlen : (b.stream.socket.unread.take (b.streamBufferSize - b.contents.length)).length =
      b.streamBufferSize - b.contents.length := by
    rw [List.length_take]
    omega
  have hne : b.stream.socket.unread.take (b.streamBufferSize - b.contents.length) ≠ [] := by
    rw [← List.length_pos_iff, hlen]
    omega
  have hpos : 1 ≤ (b.stream.socket.unread.take (b.streamBufferSize - b.contents.length)).length :=
    List.length_pos_iff.mpr hne
  have hout : (b.readAvailableDataIntoBuffer timeoutMs).1 =
      .returned (b.streamBufferSize - b.contents.length) := by
    simp [readAvailableDataIntoBuffer, hsize, Stream.read, hanswers, Stream.readLoop, Socket.read, hmin,
      hne, Stream.readLoop_done hpos, hlen]
  have hrefill := BufferedStream.refill hb timeoutMs
  generalize b.readAvailableDataIntoBuffer timeoutMs = r at hout hrefill ⊢
  cases hrefill with
  | @data b' bytes hr hbytes hmax hcontents _ hcalls harrival =>
      have hcount : bytes.length = b.streamBufferSize - b.contents.length :=
        Outcome.returned.inj hout
      rw [hanswers] at harrival
      refine ⟨b', bytes, rfl, hr, ?_, harrival.eq_of_readable, hbytes, hcalls⟩
      rw [hcontents, hr.size, List.length_append]
      omega
  | closed => cases hout
  | failed => cases hout
  | waiting => cases hout

/-- Without that room, a peer that is still open can be reported as closed. -/
theorem not_closedMeansEnd_readInto (hb : b.Valid) {most least : Nat}
    (hroom : ¬ HasRoom b (.readInto most least timeoutMs))
    (hend : ¬ b.stream.socket.EndOfStream) :
    ¬ ClosedMeansEnd b (.readInto most least timeoutMs) := by
  intro hclosed
  rcases Nat.lt_or_ge b.contents.length b.streamBufferSize with hlt | hge
  · have hleast : b.streamBufferSize < least := Nat.not_le.mp fun hle => hroom ⟨hlt, hle⟩
    -- the first read fills the buffer, the second asks for 0 bytes
    let b₀ := b.withFuture (List.replicate b.streamBufferSize 0)
      [.readable b.streamBufferSize, .readable 0]
    have hunread : b₀.streamBufferSize ≤ b₀.stream.socket.unread.length := by simp [b₀, withFuture]
    obtain ⟨b₁, bytes, hread, hr, hfull, hanswers, hne, hcalls⟩ :=
      refill_fills (b := b₀) timeoutMs hb.withFuture hlt rfl (Nat.le_refl _) hunread
    obtain ⟨b₂, hread₂, hcalls₂⟩ := refill_full timeoutMs hr.valid hfull hanswers
    have hoffset : b₁.bufferWriteOffset < least := by
      have hsize : b₁.streamBufferSize = b.streamBufferSize := hr.size
      rw [← hr.valid.length_contents]
      omega
    have hloop : fillLoop least timeoutMs least b₁ = (.socketError .SOCKET_CLOSED 0, b₂) := by
      cases least with
      | zero => omega
      | succ rounds => rw [fillLoop, if_pos hoffset, hread₂, Outcome.andThen_threw]
    have hpast : (b₀.perform (.readInto most least timeoutMs)).1.ThrewType .SOCKET_CLOSED →
        (b₀.perform (.readInto most least timeoutMs)).2.stream.socket.EndOfStream := hclosed _ _
    rw [perform, readInto, hread, Outcome.andThen_returned, hloop, Outcome.andThen_threw] at hpast
    have hend₁ := Socket.EndOfStream.of_nonempty (.inl rfl) hcalls₂ (hpast (by simp))
    exact hend (Socket.EndOfStream.of_nonempty (.inr hne) hcalls hend₁)
  · have hfull : b.contents.length = b.streamBufferSize := Nat.le_antisymm hb.contents_le hge
    obtain ⟨b', hread, hcalls⟩ := refill_full (b := b.withFuture [] [.readable 0]) timeoutMs
      hb.withFuture hfull rfl
    have hpast := hclosed [] [.readable 0]
    rw [perform, readInto, hread, Outcome.andThen_threw] at hpast
    exact hend (Socket.EndOfStream.of_nonempty (.inl rfl) hcalls (hpast (by simp)))

theorem closedMeansEnd_iff (hb : b.Valid) (op : Operation) :
    ClosedMeansEnd b op ↔ HasRoom b op ∨ b.stream.socket.EndOfStream := by
  constructor
  · intro hclosed
    by_contra hnot
    rw [not_or] at hnot
    cases op with
    | readUntilDelimiter d => exact hnot.1 trivial
    | read n timeoutMs => exact hnot.1 trivial
    | readInto most least timeoutMs => exact not_closedMeansEnd_readInto hb hnot.1 hnot.2 hclosed
  · intro h unread answers hthrew
    have hhonest := Honest.perform (b := b.withFuture unread answers) hb.withFuture op
    rcases h with hroom | hend
    · exact hhonest.closed (by cases op <;> exact hroom) hthrew
    · exact Socket.EndOfStream.mono (s := (b.withFuture unread answers).stream.socket) hend hhonest.calls

theorem Valid.operate (hb : b.Valid) (steps : List (Operation × List Byte × List Answer)) :
    (steps.foldl operate b).Valid := by
  induction steps generalizing b with
  | nil => exact hb
  | cons a steps ih => exact ih (Honest.perform hb.withFuture a.1).valid

end BufferedStream

end SocketWrapper
