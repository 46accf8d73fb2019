import SocketWrapper.Base.Lemmas.Buffer
import SocketWrapper.Base.Operation

/-!
# The two overloads of `read`

`read(n, timeout)` looks at the fill level before it reads, `read(buffer, n, n, timeout)` afterwards, and
only the first compares `n` with the size of the buffer.
-/

namespace SocketWrapper

namespace BufferedStream

variable {b : BufferedStream} {n : Nat} {timeoutMs : Int}

/-! ## The loop that fills the buffer -/

/-- More rounds than there are bytes missing change nothing. -/
theorem fillLoop_rounds {rounds : Nat} (rounds' : Nat) (hb : b.Valid) (h : n ≤ rounds + b.contents.length)
    (h' : n ≤ rounds' + b.contents.length) :
    fillLoop n timeoutMs rounds b = fillLoop n timeoutMs rounds' b := by
  induction rounds generalizing b rounds' with
  | zero =>
      rw [hb.length_contents] at h
      cases rounds' with
      | zero => rfl
      | succ rounds' => rw [fillLoop, fillLoop, if_neg (by omega)]
  | succ rounds ih =>
      rw [fillLoop]
      split
      · rename_i hlt
        cases rounds' with
        | zero =>
            rw [hb.length_contents] at h'
            omega
        | succ rounds' =>
            rw [fillLoop, if_pos hlt]
            have hrefill := refill hb timeoutMs
            generalize b.readAvailableDataIntoBuffer timeoutMs = r at hrefill ⊢
            cases hrefill with
            | @data b' bytes hr hne _ hcontents _ _ _ =>
                have hpos := List.length_pos_iff.mpr hne
                have hlen := congrArg List.length hcontents
                rw [List.length_append] at hlen
                exact ih rounds' hr.valid (by omega) (by omega)
            | closed => rfl
            | failed => rfl
            | waiting => rfl
      · rename_i hge
        cases rounds' with
        | zero => rfl
        | succ rounds' => rw [fillLoop, if_neg hge]

/-- Once the loop is done, the bytes are there. -/
theorem le_of_fillLoop {rounds : Nat} (hb : b.Valid) (h : n ≤ rounds + b.contents.length)
    {b' : BufferedStream} (hfill : fillLoop n timeoutMs rounds b = (.returned (), b')) :
    n ≤ b'.bufferWriteOffset := by
  induction rounds generalizing b with
  | zero =>
      cases hfill
      rw [hb.length_contents] at h
      omega
  | succ rounds ih =>
      rw [fillLoop] at hfill
      split at hfill
      · obtain ⟨k, b₁, hread, hrest⟩ := Outcome.andThen_returned_inv hfill
        have hrefill := refill hb timeoutMs
        rw [hread] at hrefill
        cases hrefill with
        | data hr hne _ hcontents _ _ _ =>
            have hpos := List.length_pos_iff.mpr hne
            have hlen := congrArg List.length hcontents
            rw [List.length_append] at hlen
            exact ih hr.valid (by omega) hrest
      · cases hfill
        omega

/-! ## Where the two are the same -/

theorem read_eq_readInto (timeoutMs : Int) (hb : b.Valid) (hlt : b.contents.length < n)
    (hn : n ≤ b.streamBufferSize) : b.read n timeoutMs = b.readInto n n timeoutMs := by
  obtain ⟨m, rfl⟩ : ∃ m, n = m + 1 := ⟨n - 1, by omega⟩
  have hoffset : b.bufferWriteOffset < m + 1 := hb.length_contents ▸ hlt
  rw [read, if_neg (Nat.not_lt.mpr hn), readInto, fillLoop, if_pos hoffset, Outcome.andThen_assoc]
  have hrefill := refill hb timeoutMs
  generalize b.readAvailableDataIntoBuffer timeoutMs = r at hrefill ⊢
  cases hrefill with
  | @data b' bytes hr hne _ hcontents _ _ _ =>
      have hpos := List.length_pos_iff.mpr hne
      have hlen := congrArg List.length hcontents
      rw [List.length_append] at hlen
      rw [Outcome.andThen_returned, Outcome.andThen_returned,
        fillLoop_rounds (m + 1) hr.valid (by omega) (by omega)]
      -- the pop is the same, since the loop does not stop before there are enough bytes
      cases hfill : fillLoop (m + 1) timeoutMs (m + 1) b' with
      | mk o b'' =>
          cases o with
          | returned _ =>
              have hle := le_of_fillLoop hr.valid (by omega) hfill
              rw [Outcome.andThen_returned, Outcome.andThen_returned, Nat.min_eq_right hle]
          | threw e => rfl
          | waiting => rfl
  | closed => rfl
  | failed => rfl
  | waiting => rfl

theorem isReturned_readInto_silent (hb : b.Valid) (unread : List Byte) :
    ((b.withFuture unread []).readInto n n timeoutMs).1.isReturned = false := by
  have hv : (b.withFuture unread []).Valid := ⟨hb.length_eq, hb.offset_le⟩
  have hrefill := refill hv timeoutMs
  rw [readInto]
  generalize (b.withFuture unread []).readAvailableDataIntoBuffer timeoutMs = r at hrefill ⊢
  cases hrefill with
  | data _ _ _ _ _ _ harrival => exact absurd harrival.length_lt (Nat.not_lt_zero _)
  | closed => rfl
  | failed => rfl
  | waiting => rfl

/-! ## What `read(buffer, ...)` never throws -/

def NotLogicError (e : Exception) : Prop := ∀ what, e ≠ .logicError what

theorem throws_refill (b : BufferedStream) (timeoutMs : Int) :
    Outcome.Throws NotLogicError (b.readAvailableDataIntoBuffer timeoutMs) := by
  have hread := b.stream.readOne (sizeSub b.streamBufferSize b.bufferWriteOffset) timeoutMs
  rw [readAvailableDataIntoBuffer]
  generalize b.stream.read _ 1 timeoutMs = r at hread ⊢
  intro e he what hwhat
  subst hwhat
  cases hread <;> cases he

theorem throws_fillLoop (rounds : Nat) (b : BufferedStream) :
    Outcome.Throws NotLogicError (fillLoop n timeoutMs rounds b) := by
  induction rounds generalizing b with
  | zero => exact fun e he => by cases he
  | succ rounds ih =>
      rw [fillLoop]
      split
      · exact (throws_refill b timeoutMs).andThen fun _ b' => ih b'
      · exact fun e he => by cases he

theorem throws_popFromBuffer (b : BufferedStream) (n : Nat) :
    Outcome.Throws NotLogicError (b.popFromBuffer n) := by
  intro e he what hwhat
  subst hwhat
  rw [popFromBuffer] at he
  split at he <;> cases he

theorem throws_readInto (b : BufferedStream) (most least : Nat) (timeoutMs : Int) :
    Outcome.Throws NotLogicError (b.readInto most least timeoutMs) :=
  (throws_refill b timeoutMs).andThen fun _ b' =>
    (throws_fillLoop least b').andThen fun _ b'' => throws_popFromBuffer b'' _

theorem overloadsAgree_iff (hb : b.Valid) (n : Nat) (timeoutMs : Int) :
    OverloadsAgree b n timeoutMs ↔ b.contents.length < n ∧ n ≤ b.streamBufferSize := by
  constructor
  · intro h
    constructor
    · by_contra hge
      have hreturned := (h.buffered (Nat.not_lt.mp hge)).2
      rw [isReturned_readInto_silent hb] at hreturned
      cases hreturned
    · by_contra hlarge
      obtain ⟨what, hthrew⟩ := (h.upFront (Nat.not_le.mp hlarge)).2
      exact throws_readInto b n n timeoutMs _ (congrArg Prod.fst hthrew) what rfl
  · rintro ⟨hlt, hn⟩
    have hsame := read_eq_readInto timeoutMs hb hlt hn
    exact ⟨by rw [hsame], by rw [hsame], fun hle => absurd hlt (Nat.not_lt.mpr hle),
      fun hlarge => absurd hn (Nat.not_le.mpr hlarge)⟩

end BufferedStream

end SocketWrapper
