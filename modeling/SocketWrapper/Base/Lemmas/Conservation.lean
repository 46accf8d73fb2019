import SocketWrapper.Base.Lemmas.EndOfStream
import SocketWrapper.Base.Session

/-!
# No byte is lost or made up

`remaining` is what the callers have still to get: first what is in the buffer, then what has not been
read from the socket. Refilling the buffer leaves it alone, and a call that returns takes what it hands
out off its front.
-/

namespace SocketWrapper

namespace BufferedStream

variable {b b' : BufferedStream} {timeoutMs : Int} {α β : Type}

/-- The bytes that have not been handed out. -/
def remaining (b : BufferedStream) : List Byte := b.contents ++ b.stream.socket.unread

/-- The call takes what `given` says off the front of the remaining bytes, or nothing at all. -/
structure Conserves (b : BufferedStream) (given : α → List Byte) (r : Outcome α × BufferedStream) :
    Prop where
  valid : r.2.Valid
  returned : ∀ a, r.1 = .returned a → given a ++ r.2.remaining = b.remaining
  otherwise : (∀ a, r.1 ≠ .returned a) → r.2.remaining = b.remaining

theorem Conserves.pure (hb : b.Valid) {given : α → List Byte} {a : α} (h : given a = []) :
    Conserves b given (.returned a, b) := by
  refine ⟨hb, fun a' ha => ?_, fun hne => absurd rfl (hne a)⟩
  cases ha
  rw [h, List.nil_append]

theorem Conserves.threw (hb : b.Valid) {given : α → List Byte} (e : Exception) :
    Conserves b given (.threw e, b) :=
  ⟨hb, nofun, fun _ => rfl⟩

theorem Conserves.andThen {given : β → List Byte} {r : Outcome α × BufferedStream}
    {k : α → BufferedStream → Outcome β × BufferedStream} (h : Conserves b (fun _ => []) r)
    (hk : ∀ a b', b'.Valid → Conserves b' given (k a b')) :
    Conserves b given (Outcome.andThen r k) := by
  obtain ⟨o, b'⟩ := r
  cases o with
  | returned a =>
      have h' := hk a b' h.valid
      have hsame : b'.remaining = b.remaining := h.returned a rfl
      exact ⟨h'.valid, fun c hc => (h'.returned c hc).trans hsame,
        fun hne => (h'.otherwise hne).trans hsame⟩
  | threw e => exact ⟨h.valid, nofun, fun _ => h.otherwise nofun⟩
  | waiting => exact ⟨h.valid, nofun, fun _ => h.otherwise nofun⟩

/-! ## The parts of the operations -/

theorem Conserves.refill (hb : b.Valid) :
    Conserves b (fun _ => []) (b.readAvailableDataIntoBuffer timeoutMs) := by
  have hrefill := BufferedStream.refill hb timeoutMs
  generalize b.readAvailableDataIntoBuffer timeoutMs = r at hrefill ⊢
  have hsame : ∀ {o : Outcome Nat} {b' : BufferedStream}, b'.Valid → b'.remaining = b.remaining →
      Conserves b (fun _ => []) (o, b') :=
    fun hv hr => ⟨hv, fun _ _ => hr, fun _ => hr⟩
  cases hrefill with
  | data hr _ _ hcontents hunread _ _ =>
      refine hsame hr.valid ?_
      rw [remaining, remaining, hcontents, hunread, List.append_assoc]
  | closed hr _ hcontents hunread _ =>
      refine hsame hr.valid ?_
      rw [remaining, remaining, hcontents, hunread]
  | failed hr hcontents hsocket _ =>
      refine hsame hr.valid ?_
      rw [remaining, remaining, hcontents, hsocket]
  | waiting hr hcontents hsocket _ _ _ =>
      refine hsame hr.valid ?_
      rw [remaining, remaining, hcontents, hsocket]

theorem Conserves.fillLoop {bytes : Nat} (rounds : Nat) (hb : b.Valid) :
    Conserves b (fun _ => []) (fillLoop bytes timeoutMs rounds b) := by
  induction rounds generalizing b with
  | zero => exact .pure hb rfl
  | succ rounds ih =>
      rw [BufferedStream.fillLoop]
      split
      · exact (Conserves.refill hb).andThen fun _ _ hb' => ih hb'
      · exact .pure hb rfl

theorem Popped.remaining {n : Nat} (h : Popped b n b') :
    b.contents.take n ++ b'.remaining = b.remaining := by
  rw [BufferedStream.remaining, BufferedStream.remaining, h.contents, h.stream, ← List.append_assoc,
    List.take_append_drop]

theorem Conserves.popFromBuffer (hb : b.Valid) (n : Nat) :
    Conserves b id (b.popFromBuffer n) := by
  rcases Nat.lt_or_ge b.contents.length n with h | h
  · obtain ⟨what, hpop⟩ := popFromBuffer_of_lt hb h
    rw [hpop]
    exact .threw hb _
  · obtain ⟨b', hpop, hp⟩ := popFromBuffer_of_le hb h
    rw [hpop]
    refine ⟨hp.valid, fun a ha => ?_, fun hne => absurd rfl (hne _)⟩
    cases ha
    exact hp.remaining

/-! ## The operations -/

theorem Conserves.read (hb : b.Valid) (n : Nat) : Conserves b id (b.read n timeoutMs) := by
  rw [BufferedStream.read]
  split
  · exact .threw hb _
  · exact (Conserves.fillLoop n hb).andThen fun _ _ hb' => .popFromBuffer hb' n

theorem Conserves.readInto (hb : b.Valid) (most least : Nat) :
    Conserves b id (b.readInto most least timeoutMs) :=
  (Conserves.refill hb).andThen fun _ _ hb' =>
    (Conserves.fillLoop least hb').andThen fun _ _ hb'' => .popFromBuffer hb'' _

/-- The bytes before the first delimiter, and the delimiter, are the front of the buffer. -/
theorem take_delimited (hb : b.Valid) {d : Byte} {pos : Nat}
    (h : b.contents.findIdx? (· == d) = some pos) :
    pos + 1 ≤ b.contents.length ∧ b.streamBuffer.take pos ++ [d] = b.contents.take (pos + 1) ∧
      d ∉ b.streamBuffer.take pos := by
  obtain ⟨hlt, hd, hbefore⟩ := List.findIdx?_eq_some_iff_getElem.mp h
  have hle : pos ≤ b.bufferWriteOffset := hb.length_contents ▸ Nat.le_of_lt hlt
  have htake : b.streamBuffer.take pos = b.contents.take pos := by
    rw [contents, List.take_take, Nat.min_eq_left hle]
  have hdelimiter : b.contents[pos] = d := by simpa using hd
  refine ⟨hlt, ?_, fun hmem => ?_⟩
  · rw [htake, List.take_succ_eq_append_getElem hlt, hdelimiter]
  · rw [htake, List.mem_take_iff_getElem] at hmem
    obtain ⟨i, hi, heq⟩ := hmem
    have hne := hbefore i (Nat.lt_of_lt_of_le hi (Nat.min_le_left _ _))
    simp [heq] at hne

theorem Conserves.readUntilDelimiterLoop (d : Byte) (rounds : Nat) (hb : b.Valid) :
    Conserves b (· ++ [d]) (readUntilDelimiterLoop d rounds b) := by
  induction rounds generalizing b with
  | zero => exact .threw hb _
  | succ rounds ih =>
      rw [BufferedStream.readUntilDelimiterLoop]
      split
      · refine (Conserves.refill hb).andThen fun _ b' hb' => ?_
        split
        · rename_i pos hpos
          obtain ⟨hle, hfront, -⟩ := take_delimited hb' hpos
          have hp := hb'.dropDelimited hle
          refine ⟨hp.valid, fun a ha => ?_, fun hne => absurd rfl (hne _)⟩
          cases ha
          rw [hfront]
          exact hp.remaining
        · exact ih hb'
      · exact .threw hb _

/-! ## What is returned -/

theorem length_of_popFromBuffer (hb : b.Valid) {n : Nat} {bytes : List Byte}
    (h : b.popFromBuffer n = (.returned bytes, b')) : bytes.length = n := by
  rcases Nat.lt_or_ge b.contents.length n with hlt | hge
  · obtain ⟨what, hpop⟩ := popFromBuffer_of_lt hb hlt
    rw [hpop] at h
    cases h
  · obtain ⟨b'', hpop, -⟩ := popFromBuffer_of_le hb hge
    rw [hpop] at h
    cases h
    rw [List.length_take, Nat.min_eq_left hge]

theorem length_of_read (hb : b.Valid) {n : Nat} {bytes : List Byte}
    (h : b.read n timeoutMs = (.returned bytes, b')) : bytes.length = n := by
  rw [BufferedStream.read] at h
  split at h
  · cases h
  · obtain ⟨_, b₁, hfill, hpop⟩ := Outcome.andThen_returned_inv h
    have hconserves : Conserves b _ (BufferedStream.fillLoop n timeoutMs n b) := .fillLoop n hb
    rw [hfill] at hconserves
    exact length_of_popFromBuffer hconserves.valid hpop

theorem not_mem_of_readUntilDelimiterLoop {d : Byte} (rounds : Nat) (hb : b.Valid) {bytes : List Byte}
    (h : readUntilDelimiterLoop d rounds b = (.returned bytes, b')) : d ∉ bytes := by
  induction rounds generalizing b with
  | zero => cases h
  | succ rounds ih =>
      rw [BufferedStream.readUntilDelimiterLoop] at h
      split at h
      · obtain ⟨_, b₁, hrefill, hrest⟩ := Outcome.andThen_returned_inv h
        have hconserves : Conserves b _ (b.readAvailableDataIntoBuffer (-1)) := .refill hb
        rw [hrefill] at hconserves
        split at hrest
        · rename_i pos hpos
          cases hrest
          exact (take_delimited hconserves.valid hpos).2.2
        · exact ih hconserves.valid hrest
      · cases h

/-! ## Sessions -/

theorem Conserves.handedOut {op : Operation} {given : List Byte → List Byte}
    {r : Outcome (List Byte) × BufferedStream} (h : Conserves b given r)
    (hgiven : ∀ bytes, BufferedStream.handedOut (op, .returned bytes) = given bytes) :
    BufferedStream.handedOut (op, r.1) ++ r.2.remaining = b.remaining := by
  obtain ⟨o, b'⟩ := r
  cases o with
  | returned bytes =>
      rw [hgiven]
      exact h.returned bytes rfl
  | threw e =>
      have hnone : BufferedStream.handedOut (op, .threw e) = [] := by cases op <;> rfl
      rw [hnone]
      exact h.otherwise nofun
  | waiting =>
      have hnone : BufferedStream.handedOut (op, .waiting) = [] := by cases op <;> rfl
      rw [hnone]
      exact h.otherwise nofun

theorem handedOut_perform (hb : b.Valid) (op : Operation) :
    handedOut (op, (b.perform op).1) ++ (b.perform op).2.remaining = b.remaining := by
  cases op with
  | readUntilDelimiter d =>
      exact (Conserves.readUntilDelimiterLoop d _ hb).handedOut fun _ => rfl
  | read n timeoutMs => exact (Conserves.read hb n).handedOut fun _ => rfl
  | readInto most least timeoutMs => exact (Conserves.readInto hb most least).handedOut fun _ => rfl

/-- What the callers are promised about the bytes that they are given. -/
def Promised : Operation × Outcome (List Byte) → Prop
  | (.read n _, .returned bytes) => bytes.length = n
  | (.readUntilDelimiter d, .returned bytes) => d ∉ bytes
  | _ => True

theorem promised_perform (hb : b.Valid) (op : Operation) : Promised (op, (b.perform op).1) := by
  cases hout : (b.perform op).1 with
  | returned bytes =>
      have hreturned : b.perform op = (.returned bytes, (b.perform op).2) := Prod.ext hout rfl
      cases op with
      | readUntilDelimiter d => exact not_mem_of_readUntilDelimiterLoop _ hb hreturned
      | read n timeoutMs => exact length_of_read hb hreturned
      | readInto most least timeoutMs => trivial
  | threw e => cases op <;> trivial
  | waiting => cases op <;> trivial

/-- The invariant of a session whose peer sends `sent`. -/
structure Session.Good (sent : List Byte) (s : Session) : Prop where
  valid : s.object.Valid
  bytes : s.handed ++ s.object.remaining = sent
  promised : ∀ call ∈ s.calls, Promised call

theorem Session.Good.step {sent : List Byte} {s : Session} (h : s.Good sent) (e : Event) :
    (s.step e).Good sent := by
  cases e with
  | call op answers =>
      have hv : (s.object.withFuture s.object.stream.socket.unread answers).Valid := h.valid.withFuture
      have hrest := handedOut_perform hv op
      refine ⟨(Honest.perform hv op).valid, ?_, ?_⟩
      · show ((s.calls ++ [_]).map BufferedStream.handedOut).flatten ++ _ = sent
        rw [List.map_append, List.flatten_append, List.append_assoc, List.map_singleton,
          List.flatten_singleton]
        exact (congrArg (s.handed ++ ·) hrest).trans h.bytes
      · intro call hcall
        rcases List.mem_append.mp hcall with hold | hnew
        · exact h.promised call hold
        · obtain rfl := List.mem_singleton.mp hnew
          exact promised_perform hv op
  | moveConstruct => exact ⟨⟨h.valid.length_eq, h.valid.offset_le⟩, h.bytes, h.promised⟩
  | stopReads => exact ⟨⟨h.valid.length_eq, h.valid.offset_le⟩, h.bytes, h.promised⟩

theorem Session.Good.run {sent : List Byte} {s : Session} (h : s.Good sent) (events : List Event) :
    (s.run events).Good sent := by
  induction events generalizing s with
  | nil => exact h
  | cons e events ih => exact ih (h.step e)

theorem Session.good_start (sent : List Byte) (bufferSize : Nat) :
    (Session.start sent bufferSize).Good sent :=
  ⟨.make _ _, by simp [Session.start, Session.handed, remaining, make, contents],
    fun _ hcall => by cases hcall⟩

end BufferedStream

end SocketWrapper
