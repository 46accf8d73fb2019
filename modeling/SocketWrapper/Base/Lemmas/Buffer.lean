import SocketWrapper.Base.BufferedStream
import SocketWrapper.Base.Lemmas.Rounds

/-!
# What one read and one pop do to a buffered stream

`Stream::read` is only ever asked for at least one byte here, so a call reads from the socket once.
-/

namespace SocketWrapper

open FlatMemory

/-! ## `Stream::read` with `min_bytes_to_read = 1` -/

/-- The first answer that is not `quiet` is `readable`, and `rest` follows it. -/
def Arrival (answers rest : List Answer) : Prop :=
  ∃ skipped available, (∀ a ∈ skipped, a = Answer.quiet) ∧
    answers = skipped ++ .readable available :: rest

theorem Arrival.quiet {answers rest : List Answer} (h : Arrival answers rest) :
    Arrival (.quiet :: answers) rest := by
  obtain ⟨skipped, available, hquiet, heq⟩ := h
  exact ⟨.quiet :: skipped, available, by simpa using hquiet, by rw [heq, List.cons_append]⟩

theorem Arrival.here (available : Nat) (rest : List Answer) :
    Arrival (.readable available :: rest) rest :=
  ⟨[], available, by simp, rfl⟩

theorem Arrival.eq_of_readable {n : Nat} {answers rest : List Answer}
    (h : Arrival (.readable n :: rest) answers) : answers = rest := by
  obtain ⟨skipped, available, hquiet, heq⟩ := h
  cases skipped with
  | nil => exact (List.cons.inj heq).2.symm
  | cons a skipped =>
      obtain rfl := hquiet a (by simp)
      cases heq

theorem Arrival.length_lt {answers rest : List Answer} (h : Arrival answers rest) :
    rest.length < answers.length := by
  obtain ⟨skipped, available, -, rfl⟩ := h
  rw [List.length_append, List.length_cons]
  omega

/-- What makes a read of at least one byte throw anything but `SOCKET_CLOSED`. -/
inductive FailsWith (answers : List Answer) (stopEvent : Nat) (timeoutMs : Int) :
    SocketExceptionType → Prop
  | poll {errno : Nat} : .pollFails errno ∈ answers → FailsWith answers stopEvent timeoutMs .SOCKET_POLL
  | read {errno : Nat} : .readFails errno ∈ answers → FailsWith answers stopEvent timeoutMs .SOCKET_READ
  | stopped : 0 < stopEvent → FailsWith answers stopEvent timeoutMs .SOCKET_TERMINATION_REQUEST
  | timeout : 0 ≤ timeoutMs → FailsWith answers stopEvent timeoutMs .SOCKET_READ_TIMEOUT

theorem FailsWith.quiet {answers : List Answer} {stopEvent : Nat} {timeoutMs : Int}
    {t : SocketExceptionType} (h : FailsWith answers stopEvent timeoutMs t) :
    FailsWith (.quiet :: answers) stopEvent timeoutMs t := by
  cases h with
  | poll hmem => exact .poll (List.mem_cons_of_mem _ hmem)
  | read hmem => exact .read (List.mem_cons_of_mem _ hmem)
  | stopped hstop => exact .stopped hstop
  | timeout htime => exact .timeout htime

/-! ### Sockets that every poll finds readable -/

theorem Arrival.of_cuts {cuts : List Nat} {rest : List Answer} (h : Arrival (cuts.map .readable) rest) :
    ∃ cut left, cuts = cut :: left ∧ rest = left.map .readable := by
  obtain ⟨skipped, available, hquiet, heq⟩ := h
  cases skipped with
  | nil =>
      cases cuts with
      | nil => cases heq
      | cons cut left =>
          simp only [List.map_cons, List.nil_append, List.cons.injEq] at heq
          exact ⟨cut, left, rfl, heq.2.symm⟩
  | cons a skipped =>
      obtain rfl := hquiet a (by simp)
      cases cuts <;> simp at heq

/-- A read then neither fails nor waits. -/
theorem FailsWith.not_of_cuts {cuts : List Nat} {t : SocketExceptionType}
    (h : FailsWith (cuts.map .readable) 0 (-1) t) : False := by
  cases h with
  | poll hmem => simp at hmem
  | read hmem => simp at hmem
  | stopped hstop => exact absurd hstop (Nat.lt_irrefl 0)
  | timeout htime => exact absurd htime (by decide)

/-! ### The results -/

/-- The results of asking for between 1 and `maxBytes` bytes. -/
inductive ReadOne (s : Stream) (maxBytes : Nat) (timeoutMs : Int) : ReadResult → Prop
  | data {bytes unread : List Byte} {answers : List Answer} :
      bytes ≠ [] → bytes.length ≤ maxBytes → s.socket.unread = bytes ++ unread →
      Arrival s.answers answers →
      ReadOne s maxBytes timeoutMs ⟨.returned bytes.length, bytes,
        ⟨⟨unread, s.socket.calls ++ [⟨maxBytes, bytes⟩]⟩, s.stopEvent, answers⟩⟩
  | closed {answers : List Answer} :
      maxBytes = 0 ∨ s.socket.unread = [] →
      ReadOne s maxBytes timeoutMs ⟨.socketError .SOCKET_CLOSED 0, [],
        ⟨⟨s.socket.unread, s.socket.calls ++ [⟨maxBytes, []⟩]⟩, s.stopEvent, answers⟩⟩
  | failed {t : SocketExceptionType} {n : Nat} {answers : List Answer} :
      FailsWith s.answers s.stopEvent timeoutMs t →
      ReadOne s maxBytes timeoutMs
        ⟨.socketError t n, [], ⟨s.socket, s.stopEvent, answers⟩⟩
  | waiting : s.stopEvent = 0 → (∀ a ∈ s.answers, a = Answer.quiet) →
      ReadOne s maxBytes timeoutMs ⟨.waiting, [], ⟨s.socket, s.stopEvent, []⟩⟩

theorem ReadOne.quiet {socket : Socket} {stopEvent maxBytes : Nat} {timeoutMs : Int}
    {answers : List Answer} {r : ReadResult}
    (h : ReadOne ⟨socket, stopEvent, answers⟩ maxBytes timeoutMs r) :
    ReadOne ⟨socket, stopEvent, .quiet :: answers⟩ maxBytes timeoutMs r := by
  cases h with
  | data hne hle hunread harrival => exact .data hne hle hunread harrival.quiet
  | closed hend => exact .closed hend
  | failed hfails => exact .failed hfails.quiet
  | waiting hstop hquiet => exact .waiting hstop (by simpa using hquiet)

theorem FailsWith.of_fails {a : Answer} {answers : List Answer} {stopEvent errno : Nat} {timeoutMs : Int}
    {t : SocketExceptionType} (h : a.Fails stopEvent timeoutMs t errno) :
    FailsWith (a :: answers) stopEvent timeoutMs t := by
  cases h with
  | poll => exact .poll List.mem_cons_self
  | read => exact .read List.mem_cons_self
  | stopped hstop => exact .stopped hstop
  | expired _ htime => exact .timeout htime

/-- One read of at least one byte is enough. -/
theorem Stream.Rounds.readOne {socket : Socket} {stopEvent maxBytes : Nat} {timeoutMs : Int}
    {answers : List Answer} {r : ReadResult}
    (h : Rounds maxBytes 1 timeoutMs stopEvent answers socket [] r) :
    ReadOne ⟨socket, stopEvent, answers⟩ maxBytes timeoutMs r := by
  generalize hstored : ([] : List Byte) = stored at h
  induction h with
  | done hdone =>
      subst hstored
      cases hdone
  | waits _ hstop =>
      subst hstored
      exact .waiting hstop (by simp)
  | stopped _ hstop =>
      subst hstored
      exact .failed (.stopped hstop)
  | fails _ hfails =>
      subst hstored
      exact .failed (.of_fails hfails)
  | closed _ hnil =>
      subst hstored
      rw [Socket.read_of_nil hnil]
      exact .closed (Socket.read_eq_nil_iff.mp hnil)
  | more _ hne hrest =>
      subst hstored
      rw [hrest.eq_of_done (List.length_pos_iff.mpr hne)]
      exact .data hne (Socket.length_read_le _ _ _) (Socket.read_append _ _ _).symm (.here _ _)
  | again _ _ _ _ ih => exact (ih hstored).quiet

theorem Stream.readOne (s : Stream) (maxBytes : Nat) (timeoutMs : Int) :
    ReadOne s maxBytes timeoutMs (s.read maxBytes 1 timeoutMs) :=
  Stream.rounds.readOne

/-! ## `PopFromBuffer` -/

namespace BufferedStream

variable {b b' : BufferedStream} {n : Nat}

theorem Valid.make (s : Stream) (n : Nat) : (make s n).Valid :=
  ⟨List.length_replicate, Nat.zero_le _⟩

@[simp] theorem contents_make (s : Stream) (n : Nat) : (make s n).contents = [] := by
  simp [make, contents]

theorem Valid.length_contents (hb : b.Valid) : b.contents.length = b.bufferWriteOffset := by
  rw [contents, List.length_take, hb.length_eq]
  exact Nat.min_eq_left hb.offset_le

theorem Valid.contents_le (hb : b.Valid) : b.contents.length ≤ b.streamBufferSize :=
  hb.length_contents ▸ hb.offset_le

/-- A pop of bytes that are there takes them off the front and touches nothing else. -/
structure Popped (b : BufferedStream) (n : Nat) (b' : BufferedStream) : Prop where
  valid : b'.Valid
  contents : b'.contents = b.contents.drop n
  stream : b'.stream = b.stream
  size : b'.streamBufferSize = b.streamBufferSize

theorem popFromBuffer_of_le (hb : b.Valid) (h : n ≤ b.contents.length) :
    ∃ b', b.popFromBuffer n = (.returned (b.contents.take n), b') ∧ Popped b n b' := by
  have hn : n ≤ b.bufferWriteOffset := hb.length_contents ▸ h
  have hblock : b.bufferWriteOffset ≤ b.streamBuffer.length := hb.length_eq ▸ hb.offset_le
  have htake : (b.streamBuffer.take n).length = n := by
    rw [List.length_take]
    omega
  have hin : n + (b.bufferWriteOffset - n) ≤ b.streamBuffer.length := by omega
  have hsame : n + (b.bufferWriteOffset - n) = b.bufferWriteOffset := by omega
  refine ⟨{ b with
    bufferWriteOffset := b.bufferWriteOffset - n
    streamBuffer := moveToFront b.streamBuffer n (b.bufferWriteOffset - n) }, ?_, ?_⟩
  · simp only [popFromBuffer, Nat.not_lt.mpr hn, ↓reduceIte, htake, sizeSub_of_le hn, BufferedStream.contents,
      List.take_take, Nat.min_eq_left hn]
  · refine ⟨⟨?_, ?_⟩, ?_, rfl, rfl⟩
    · exact (length_moveToFront hin).trans hb.length_eq
    · exact Nat.le_trans (Nat.sub_le _ _) hb.offset_le
    · simp only [BufferedStream.contents, take_moveToFront hin, hsame]

theorem popFromBuffer_of_lt (hb : b.Valid) (h : b.contents.length < n) :
    ∃ what, b.popFromBuffer n = (.threw (.outOfRange what), b) := by
  rw [hb.length_contents] at h
  exact ⟨_, by rw [popFromBuffer, if_pos h]⟩

/-! ## `readAvailableDataIntoBuffer` -/

def received (b : BufferedStream) : List Byte := b.stream.socket.received

theorem received_of_calls {requested : Nat} {bytes : List Byte}
    (h : b'.stream.socket.calls = b.stream.socket.calls ++ [⟨requested, bytes⟩]) :
    b'.received = b.received ++ bytes := by
  simp [received, Socket.received, h]

/-- What a refill leaves alone, whatever it does. -/
structure Refilled (b b' : BufferedStream) : Prop where
  valid : b'.Valid
  size : b'.streamBufferSize = b.streamBufferSize
  stopEvent : b'.stream.stopEvent = b.stream.stopEvent

/-- The results of `readAvailableDataIntoBuffer`. Only the first puts anything in the buffer. -/
inductive Refill (b : BufferedStream) (timeoutMs : Int) : Outcome Nat × BufferedStream → Prop
  | data {b' : BufferedStream} {bytes : List Byte} :
      Refilled b b' → bytes ≠ [] → bytes.length ≤ b.streamBufferSize - b.contents.length →
      b'.contents = b.contents ++ bytes →
      b.stream.socket.unread = bytes ++ b'.stream.socket.unread →
      b'.stream.socket.calls =
        b.stream.socket.calls ++ [⟨b.streamBufferSize - b.contents.length, bytes⟩] →
      Arrival b.stream.answers b'.stream.answers →
      Refill b timeoutMs (.returned bytes.length, b')
  | closed {b' : BufferedStream} :
      Refilled b b' → b.contents.length = b.streamBufferSize ∨ b.stream.socket.unread = [] →
      b'.contents = b.contents → b'.stream.socket.unread = b.stream.socket.unread →
      b'.stream.socket.calls =
        b.stream.socket.calls ++ [⟨b.streamBufferSize - b.contents.length, []⟩] →
      Refill b timeoutMs (.socketError .SOCKET_CLOSED 0, b')
  | failed {b' : BufferedStream} {t : SocketExceptionType} {n : Nat} :
      Refilled b b' → b'.contents = b.contents → b'.stream.socket = b.stream.socket →
      FailsWith b.stream.answers b.stream.stopEvent timeoutMs t →
      Refill b timeoutMs (.socketError t n, b')
  | waiting {b' : BufferedStream} :
      Refilled b b' → b'.contents = b.contents → b'.stream.socket = b.stream.socket →
      b.stream.stopEvent = 0 → (∀ a ∈ b.stream.answers, a = Answer.quiet) →
      b'.stream.answers = [] → Refill b timeoutMs (.waiting, b')

theorem refill (hb : b.Valid) (timeoutMs : Int) :
    Refill b timeoutMs (b.readAvailableDataIntoBuffer timeoutMs) := by
  have hroom : sizeSub b.streamBufferSize b.bufferWriteOffset =
      b.streamBufferSize - b.contents.length := by
    rw [sizeSub_of_le hb.offset_le, hb.length_contents]
  have hread := b.stream.readOne (b.streamBufferSize - b.contents.length) timeoutMs
  have hoff := hb.length_contents
  have hle := hb.offset_le
  have hlen := hb.length_eq
  simp only [readAvailableDataIntoBuffer, hroom]
  generalize b.stream.read (b.streamBufferSize - b.contents.length) 1 timeoutMs = r at hread ⊢
  cases hread with
  | data hne hmax hunread harrival =>
      rename_i bytes _ _
      have hin : b.bufferWriteOffset + bytes.length ≤ b.streamBuffer.length := by omega
      refine .data ⟨⟨?_, ?_⟩, rfl, rfl⟩ hne hmax ?_ hunread rfl harrival
      · exact (length_store hin).trans hlen
      · show b.bufferWriteOffset + bytes.length ≤ b.streamBufferSize
        omega
      · exact take_store hin
  | closed hend =>
      simp only [store_nil]
      refine .closed ⟨⟨hlen, hle⟩, rfl, rfl⟩ ?_ rfl rfl rfl
      have hbound := hb.contents_le
      exact hend.imp_left (fun h => by omega)
  | failed ht =>
      simp only [store_nil]
      exact .failed ⟨⟨hlen, hle⟩, rfl, rfl⟩ rfl rfl ht
  | waiting hstop hquiet =>
      simp only [store_nil]
      exact .waiting ⟨⟨hlen, hle⟩, rfl, rfl⟩ rfl rfl hstop hquiet rfl

end BufferedStream

end SocketWrapper
