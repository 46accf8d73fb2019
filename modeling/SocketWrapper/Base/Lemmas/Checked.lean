import SocketWrapper.Base.Checked
import SocketWrapper.Base.Lemmas.Conservation

/-!
# No check fails on a valid buffer

There the checked code does what the code does. Without a block the first read from the socket is outside
of it.
-/

namespace SocketWrapper

open FlatMemory BufferedStream

namespace Checked

variable {b b' : BufferedStream} {start length offset bufferSize : Nat} {α β : Type} {timeoutMs : Int}

/-! ## The checks -/

theorem subtract_of_le {a b : Nat} (h : b ≤ a) : subtract a b = .ok (a - b) := if_pos h

theorem touch_of_le (h : start + length ≤ b.streamBuffer.length) : touch b start length = .ok () :=
  if_pos h

theorem setOffset_of_le (h : offset ≤ b.streamBufferSize) :
    setOffset b offset = .ok { b with bufferWriteOffset := offset } :=
  if_pos h

theorem memmove_of_le {src : Nat} (h : src + length ≤ b.streamBuffer.length) :
    memmove b src length =
      .ok { b with streamBuffer := moveToFront b.streamBuffer src length } := by
  have hfront : 0 + length ≤ b.streamBuffer.length := by omega
  rw [memmove, touch_of_le h, touch_of_le hfront]
  rfl

theorem andThen_ok {r : Outcome α × BufferedStream}
    {checked : α → BufferedStream → Checked (Outcome β × BufferedStream)}
    {k : α → BufferedStream → Outcome β × BufferedStream}
    (h : ∀ a, r.1 = .returned a → checked a r.2 = .ok (k a r.2)) :
    andThen (.ok r) checked = .ok (Outcome.andThen r k) := by
  obtain ⟨o, b'⟩ := r
  cases o with
  | returned a => exact h a rfl
  | threw e => rfl
  | waiting => rfl

/-! ## The functions on a valid buffer -/

theorem popFromBuffer_eq (hb : b.Valid) (n : Nat) : popFromBuffer b n = .ok (b.popFromBuffer n) := by
  have hblock : b.bufferWriteOffset ≤ b.streamBuffer.length := hb.length_eq ▸ hb.offset_le
  have hoffset := hb.offset_le
  rw [popFromBuffer, BufferedStream.popFromBuffer]
  split
  · rfl
  · rename_i hle
    have htake : (b.streamBuffer.take n).length = n := by
      rw [List.length_take]
      omega
    have hsub : n ≤ b.bufferWriteOffset := Nat.not_lt.mp hle
    have hnew : b.bufferWriteOffset - n ≤ b.streamBufferSize := by omega
    have hcopied : 0 + n ≤ b.streamBuffer.length := by omega
    have hmoved : n + (b.bufferWriteOffset - n) ≤ b.streamBuffer.length := by omega
    simp only [htake, touch_of_le hcopied, subtract_of_le hsub, sizeSub_of_le hsub, setOffset_of_le hnew,
      bind, Except.bind]
    rw [memmove_of_le (b := { b with bufferWriteOffset := b.bufferWriteOffset - n }) hmoved]
    rfl

theorem readAvailableDataIntoBuffer_eq (hb : b.Valid) (timeoutMs : Int) :
    readAvailableDataIntoBuffer b timeoutMs = .ok (b.readAvailableDataIntoBuffer timeoutMs) := by
  have hoffset := hb.offset_le
  have hlength := hb.length_eq
  have hroom : b.bufferWriteOffset + (b.streamBufferSize - b.bufferWriteOffset) ≤ b.streamBuffer.length := by
    omega
  have hread := b.stream.readOne (b.streamBufferSize - b.bufferWriteOffset) timeoutMs
  simp only [readAvailableDataIntoBuffer, BufferedStream.readAvailableDataIntoBuffer,
    subtract_of_le hoffset, sizeSub_of_le hoffset, bind, Except.bind, touch_of_le hroom]
  generalize b.stream.read (b.streamBufferSize - b.bufferWriteOffset) 1 timeoutMs = r at hread ⊢
  cases hread with
  | @data bytes _ _ _ hmax _ _ =>
      have hnew : b.bufferWriteOffset + bytes.length ≤ b.streamBufferSize := by omega
      dsimp only
      rw [setOffset, if_pos hnew]
      rfl
  | closed => rfl
  | failed => rfl
  | waiting => rfl

theorem valid_readAvailable (hb : b.Valid) (timeoutMs : Int) :
    (b.readAvailableDataIntoBuffer timeoutMs).2.Valid :=
  (Conserves.refill hb).valid

theorem fillLoop_eq {bytes : Nat} (rounds : Nat) (hb : b.Valid) :
    fillLoop bytes timeoutMs rounds b = .ok (BufferedStream.fillLoop bytes timeoutMs rounds b) := by
  induction rounds generalizing b with
  | zero => rfl
  | succ rounds ih =>
      rw [fillLoop, BufferedStream.fillLoop]
      split
      · rw [readAvailableDataIntoBuffer_eq hb]
        exact andThen_ok fun _ _ => ih (valid_readAvailable hb timeoutMs)
      · rfl

theorem readUntilDelimiterLoop_eq (d : Byte) (rounds : Nat) (hb : b.Valid) :
    readUntilDelimiterLoop d rounds b = .ok (BufferedStream.readUntilDelimiterLoop d rounds b) := by
  induction rounds generalizing b with
  | zero => rfl
  | succ rounds ih =>
      rw [readUntilDelimiterLoop, BufferedStream.readUntilDelimiterLoop]
      split
      · rw [readAvailableDataIntoBuffer_eq hb]
        refine andThen_ok fun _ _ => ?_
        have hb' := valid_readAvailable hb (-1)
        generalize (b.readAvailableDataIntoBuffer (-1)).2 = b' at hb' ⊢
        have hoffset := hb'.offset_le
        have hlength := hb'.length_eq
        have hscan : 0 + b'.bufferWriteOffset ≤ b'.streamBuffer.length := by omega
        rw [touch_of_le hscan]
        cases hfind : b'.contents.findIdx? (· == d) with
        | none => exact ih hb'
        | some pos =>
            have hpos : pos < b'.contents.length := (List.findIdx?_eq_some_iff_getElem.mp hfind).1
            rw [hb'.length_contents] at hpos
            have htake : (b'.streamBuffer.take pos).length = pos := by
              rw [List.length_take]
              omega
            have hcopied : 0 + pos ≤ b'.streamBuffer.length := by omega
            have hsub : pos + 1 ≤ b'.bufferWriteOffset := hpos
            have hnew : b'.bufferWriteOffset - (pos + 1) ≤ b'.streamBufferSize := by omega
            have hmoved : pos + 1 + (b'.bufferWriteOffset - (pos + 1)) ≤ b'.streamBuffer.length := by omega
            simp only [htake, touch_of_le hcopied, subtract_of_le hsub, sizeSub_of_le hsub,
              setOffset_of_le hnew, bind, Except.bind]
            rw [memmove_of_le (b := { b' with bufferWriteOffset := b'.bufferWriteOffset - (pos + 1) }) hmoved]
            rfl
      · rfl

theorem perform_eq (hb : b.Valid) (op : Operation) : perform b op = .ok (b.perform op) := by
  cases op with
  | readUntilDelimiter d => exact readUntilDelimiterLoop_eq d _ hb
  | read n timeoutMs =>
      rw [perform, read, BufferedStream.perform, BufferedStream.read]
      split
      · rfl
      · rw [fillLoop_eq n hb]
        exact andThen_ok fun _ _ => popFromBuffer_eq (Conserves.fillLoop n hb).valid n
  | readInto most least timeoutMs =>
      rw [perform, readInto, readAvailableDataIntoBuffer_eq hb]
      refine andThen_ok fun _ _ => ?_
      have hb' := valid_readAvailable hb timeoutMs
      rw [fillLoop_eq least hb']
      exact andThen_ok fun _ _ => popFromBuffer_eq (Conserves.fillLoop least hb').valid _

/-! ## Sequences of calls -/

theorem after_eq (hb : b.Valid) (call : Call) : after b call = .ok (b.after call) := by
  cases call with
  | operation op =>
      rw [after, perform_eq hb]
      rfl
  | readAvailableDataIntoBuffer timeoutMs =>
      rw [after, readAvailableDataIntoBuffer_eq hb]
      rfl
  | popFromBuffer n =>
      rw [after, popFromBuffer_eq hb]
      rfl
  | moveConstruct => rfl

theorem valid_after (hb : b.Valid) (call : Call) : (b.after call).Valid := by
  cases call with
  | operation op => exact (Honest.perform hb op).valid
  | readAvailableDataIntoBuffer timeoutMs => exact valid_readAvailable hb timeoutMs
  | popFromBuffer n => exact (Conserves.popFromBuffer hb n).valid
  | moveConstruct => exact ⟨hb.length_eq, hb.offset_le⟩

theorem exists_run (hb : b.Valid) (calls : List (Stream × Call)) : ∃ b', run b calls = .ok b' ∧ b'.Valid := by
  induction calls generalizing b with
  | nil => exact ⟨b, rfl, hb⟩
  | cons c calls ih =>
      obtain ⟨stream, call⟩ := c
      have hstream : ({ b with stream := stream } : BufferedStream).Valid := ⟨hb.length_eq, hb.offset_le⟩
      rw [run, after_eq hstream]
      exact ih (valid_after hstream call)

theorem staysValid_of_valid (hb : b.Valid) (calls : List (Stream × Call)) : StaysValid b calls := by
  intro earlier _
  obtain ⟨b', hrun, hb'⟩ := exists_run hb earlier
  exact ⟨b', hrun, hb'.offset_le⟩

/-! ## Without a block -/

/-- `calloc` has failed, and nothing has been read. -/
structure Unallocated (bufferSize : Nat) (b : BufferedStream) : Prop where
  size : b.streamBufferSize = bufferSize
  block : b.streamBuffer = []
  offset : b.bufferWriteOffset = 0

theorem unallocated_make (stream : Stream) : Unallocated bufferSize (make false stream bufferSize) :=
  ⟨rfl, rfl, rfl⟩

/-- The range for the bytes from the socket is not empty, and there is no block. -/
theorem readAvailable_unallocated (hb : Unallocated bufferSize b) (hsize : 0 < bufferSize) :
    readAvailableDataIntoBuffer b timeoutMs = .error .outside := by
  have hroom : b.bufferWriteOffset ≤ b.streamBufferSize := by rw [hb.offset]; exact Nat.zero_le _
  have houtside : touch b b.bufferWriteOffset (b.streamBufferSize - b.bufferWriteOffset) =
      .error .outside := by
    refine if_neg ?_
    rw [hb.offset, hb.size, hb.block, List.length_nil]
    omega
  simp only [readAvailableDataIntoBuffer, subtract_of_le hroom, bind, Except.bind, houtside]

theorem after_of_reads (hb : Unallocated bufferSize b) (hsize : 0 < bufferSize) {call : Call}
    (hreads : call.ReadsSocket bufferSize) : after b call = .error .outside := by
  have hfill : ∀ {timeoutMs : Int}, readAvailableDataIntoBuffer b timeoutMs = .error .outside :=
    readAvailable_unallocated hb hsize
  cases call with
  | operation op =>
      cases op with
      | readUntilDelimiter d =>
          obtain ⟨rounds, hrounds⟩ := Nat.exists_eq_succ_of_ne_zero (Nat.pos_iff_ne_zero.mp hsize)
          rw [after, perform, readUntilDelimiter, hb.offset, hb.size, Nat.sub_zero, hrounds,
            readUntilDelimiterLoop, hb.offset, hb.size, if_pos hsize, hfill]
          rfl
      | read n timeoutMs =>
          obtain ⟨hpos, hle⟩ := hreads
          obtain ⟨rounds, rfl⟩ := Nat.exists_eq_succ_of_ne_zero (Nat.pos_iff_ne_zero.mp hpos)
          rw [after, perform, read, hb.size, if_neg (Nat.not_lt.mpr hle), fillLoop, hb.offset,
            if_pos hpos, hfill]
          rfl
      | readInto most least timeoutMs =>
          rw [after, perform, readInto, hfill]
          rfl
  | readAvailableDataIntoBuffer timeoutMs =>
      rw [after, hfill]
      rfl
  | popFromBuffer n => cases hreads
  | moveConstruct => cases hreads

/-- An empty pop from no block. -/
theorem popFromBuffer_unallocated (hb : Unallocated bufferSize b) (n : Nat) :
    ∃ o, popFromBuffer b n = .ok (o, b) := by
  obtain ⟨stream, size, block, offset⟩ := b
  obtain ⟨rfl, rfl, rfl⟩ := hb
  cases n with
  | zero => exact ⟨_, rfl⟩
  | succ n => exact ⟨_, if_pos (Nat.succ_pos n)⟩

theorem after_of_not_reads (hb : Unallocated bufferSize b) {call : Call}
    (hreads : ¬ call.ReadsSocket bufferSize) (hsize : 0 < bufferSize) :
    ∃ b', after b call = .ok b' ∧ Unallocated bufferSize b' := by
  cases call with
  | operation op =>
      cases op with
      | readUntilDelimiter d => exact absurd hsize hreads
      | read n timeoutMs =>
          rcases Nat.lt_or_ge bufferSize n with hlt | hle
          · refine ⟨b, ?_, hb⟩
            rw [after, perform, read, hb.size, if_pos hlt]
            rfl
          · have hzero : n = 0 := Nat.eq_zero_of_not_pos fun hpos => hreads ⟨hpos, hle⟩
            subst hzero
            obtain ⟨o, hpop⟩ := popFromBuffer_unallocated hb 0
            refine ⟨b, ?_, hb⟩
            rw [after, perform, read, if_neg (Nat.not_lt_zero _), fillLoop]
            show (popFromBuffer b 0).map Prod.snd = .ok b
            rw [hpop]
            rfl
      | readInto most least timeoutMs => exact absurd trivial hreads
  | readAvailableDataIntoBuffer timeoutMs => exact absurd trivial hreads
  | popFromBuffer n =>
      obtain ⟨o, hpop⟩ := popFromBuffer_unallocated hb n
      refine ⟨b, ?_, hb⟩
      rw [after, hpop]
      rfl
  | moveConstruct => exact ⟨_, rfl, hb.size, hb.block, hb.offset⟩

theorem run_unallocated (hb : Unallocated bufferSize b) (hsize : 0 < bufferSize)
    {calls : List (Stream × Call)} (hcalls : ∀ c ∈ calls, ¬ c.2.ReadsSocket bufferSize) :
    ∃ b', run b calls = .ok b' ∧ Unallocated bufferSize b' := by
  induction calls generalizing b with
  | nil => exact ⟨b, rfl, hb⟩
  | cons c calls ih =>
      obtain ⟨stream, call⟩ := c
      obtain ⟨hcall, hrest⟩ := List.forall_mem_cons.mp hcalls
      have hstream : Unallocated bufferSize { b with stream := stream } := ⟨hb.size, hb.block, hb.offset⟩
      obtain ⟨b', hafter, hb'⟩ := after_of_not_reads hstream hcall hsize
      rw [run, hafter]
      exact ih hb' hrest

theorem not_reads_of_run (hb : Unallocated bufferSize b) (hsize : 0 < bufferSize)
    {calls : List (Stream × Call)} (hrun : run b calls = .ok b') :
    ∀ c ∈ calls, ¬ c.2.ReadsSocket bufferSize := by
  induction calls generalizing b with
  | nil => exact fun _ h => absurd h List.not_mem_nil
  | cons c calls ih =>
      obtain ⟨stream, call⟩ := c
      have hstream : Unallocated bufferSize { b with stream := stream } := ⟨hb.size, hb.block, hb.offset⟩
      rw [run] at hrun
      by_cases hcall : call.ReadsSocket bufferSize
      · rw [after_of_reads hstream hsize hcall] at hrun
        cases hrun
      · obtain ⟨b₁, hafter, hb₁⟩ := after_of_not_reads hstream hcall hsize
        rw [hafter] at hrun
        exact List.forall_mem_cons.mpr ⟨hcall, ih hb₁ hrun⟩

theorem staysValid_unallocated_iff (hb : Unallocated bufferSize b) (hsize : 0 < bufferSize)
    (calls : List (Stream × Call)) :
    StaysValid b calls ↔ ∀ c ∈ calls, ¬ c.2.ReadsSocket bufferSize := by
  constructor
  · intro hvalid
    obtain ⟨b', hrun, -⟩ := hvalid calls List.prefix_rfl
    exact not_reads_of_run hb hsize hrun
  · intro hcalls earlier hearlier
    obtain ⟨b', hrun, hb'⟩ := run_unallocated hb hsize fun c hc => hcalls c (hearlier.subset hc)
    exact ⟨b', hrun, hb'.offset ▸ Nat.zero_le _⟩

end Checked

end SocketWrapper
