import SocketWrapper.Base.Lemmas.Conservation
import SocketWrapper.Base.Lines

/-!
# How a call of `readUntilDelimiter` ends

The loop refills the buffer and looks at it afterwards, never before. So what is in the buffer when the
call begins does not matter until the socket has given something.
-/

namespace SocketWrapper

namespace BufferedStream

variable {b b₁ b' : BufferedStream} {d : Byte} {new : List Byte}

/-- Refills have put `new` behind what `b` holds. No byte costs more than one answer of the kernel. -/
structure Grown (b : BufferedStream) (new : List Byte) (b' : BufferedStream) : Prop where
  refilled : Refilled b b'
  contents : b'.contents = b.contents ++ new
  unread : b.stream.socket.unread = new ++ b'.stream.socket.unread
  received : b'.received = b.received ++ new
  answers : ∀ cuts : List Nat, b.stream.answers = cuts.map .readable →
    ∃ left : List Nat, b'.stream.answers = left.map .readable ∧ cuts.length ≤ left.length + new.length
  spent : b'.stream.answers.length + min 1 new.length ≤ b.stream.answers.length

theorem Grown.refl (hb : b.Valid) : Grown b [] b where
  refilled := ⟨hb, rfl, rfl⟩
  contents := (List.append_nil _).symm
  unread := rfl
  received := (List.append_nil _).symm
  answers cuts h := ⟨cuts, h, Nat.le_refl _⟩
  spent := Nat.le_refl _

theorem Grown.trans {more : List Byte} (h : Grown b new b₁) (h' : Grown b₁ more b') :
    Grown b (new ++ more) b' where
  refilled := ⟨h'.refilled.valid, h'.refilled.size.trans h.refilled.size,
    h'.refilled.stopEvent.trans h.refilled.stopEvent⟩
  contents := by rw [h'.contents, h.contents, List.append_assoc]
  unread := by rw [h.unread, h'.unread, List.append_assoc]
  received := by rw [h'.received, h.received, List.append_assoc]
  answers cuts hcuts := by
    obtain ⟨left, hleft, hle⟩ := h.answers cuts hcuts
    obtain ⟨left', hleft', hle'⟩ := h'.answers left hleft
    refine ⟨left', hleft', ?_⟩
    rw [List.length_append]
    omega
  spent := by
    have hfirst := h.spent
    have hsecond := h'.spent
    rw [List.length_append]
    omega

theorem Grown.remaining (h : Grown b new b') : b'.remaining = b.remaining := by
  rw [BufferedStream.remaining, BufferedStream.remaining, h.contents, h.unread, List.append_assoc]

theorem Grown.refill (hr : Refilled b b') (hne : new ≠ []) (hcontents : b'.contents = b.contents ++ new)
    (hunread : b.stream.socket.unread = new ++ b'.stream.socket.unread) {requested : Nat}
    (hcalls : b'.stream.socket.calls = b.stream.socket.calls ++ [⟨requested, new⟩])
    (harrival : Arrival b.stream.answers b'.stream.answers) : Grown b new b' where
  refilled := hr
  contents := hcontents
  unread := hunread
  received := received_of_calls hcalls
  answers cuts hcuts := by
    rw [hcuts] at harrival
    obtain ⟨cut, left, rfl, hleft⟩ := Arrival.of_cuts harrival
    have hpos := List.length_pos_iff.mpr hne
    refine ⟨left, hleft, ?_⟩
    rw [List.length_cons]
    omega
  spent := Nat.le_trans (Nat.add_le_add_left (Nat.min_le_left _ _) _) harrival.length_lt

/-- A refill has brought nothing. -/
structure Kept (b b' : BufferedStream) : Prop extends Refilled b b' where
  contents : b'.contents = b.contents
  unread : b'.stream.socket.unread = b.stream.socket.unread

/-- The ends of a call of `readUntilDelimiter`. -/
inductive LineEnd (d : Byte) (b : BufferedStream) : Outcome (List Byte) × BufferedStream → Prop
  | found {new p : List Byte} {b₁ b' : BufferedStream} :
      Grown b new b₁ → new ≠ [] → d ∉ p → b₁.contents = p ++ d :: b'.contents →
      Refilled b₁ b' → b'.stream = b₁.stream → LineEnd d b (.returned p, b')
  | full {new : List Byte} {b' : BufferedStream} :
      Grown b new b' → b'.contents.length = b'.streamBufferSize → (new ≠ [] → d ∉ b'.contents) →
      LineEnd d b (.threw (.logicError "could not find delimiter, even though the buffer is full"), b')
  | closed {new : List Byte} {b₁ b' : BufferedStream} :
      Grown b new b₁ → (new ≠ [] → d ∉ b₁.contents) → b₁.stream.socket.unread = [] →
      Kept b₁ b' → LineEnd d b (.socketError .SOCKET_CLOSED 0, b')
  | failed {new : List Byte} {b₁ b' : BufferedStream} {t : SocketExceptionType} {n : Nat} :
      Grown b new b₁ → FailsWith b₁.stream.answers b₁.stream.stopEvent (-1) t →
      Kept b₁ b' → LineEnd d b (.socketError t n, b')
  | waiting {new : List Byte} {b₁ b' : BufferedStream} :
      Grown b new b₁ → (∀ a ∈ b₁.stream.answers, a = Answer.quiet) →
      Kept b₁ b' → LineEnd d b (.waiting, b')

/-- The front of the buffer up to its first delimiter. -/
theorem contents_delimited (hb : b.Valid) {pos : Nat} (h : b.contents.findIdx? (· == d) = some pos) :
    b.contents = b.streamBuffer.take pos ++ d :: b.contents.drop (pos + 1) := by
  obtain ⟨-, hfront, -⟩ := take_delimited hb h
  calc b.contents = b.contents.take (pos + 1) ++ b.contents.drop (pos + 1) :=
        (List.take_append_drop _ _).symm
    _ = b.streamBuffer.take pos ++ [d] ++ b.contents.drop (pos + 1) := by rw [hfront]
    _ = _ := by rw [List.append_assoc, List.singleton_append]

theorem lineEnd_loop (rounds : Nat) (h : Grown b new b₁) (hclean : new ≠ [] → d ∉ b₁.contents)
    (hrounds : b₁.streamBufferSize ≤ rounds + b₁.contents.length) :
    LineEnd d b (readUntilDelimiterLoop d rounds b₁) := by
  have hle := h.refilled.valid.contents_le
  induction rounds generalizing new b₁ with
  | zero => exact .full h (by omega) hclean
  | succ rounds ih =>
      rw [readUntilDelimiterLoop]
      split
      · rename_i hroom
        rw [← h.refilled.valid.length_contents] at hroom
        have hrefill := refill h.refilled.valid (-1)
        generalize b₁.readAvailableDataIntoBuffer (-1) = r at hrefill ⊢
        cases hrefill with
        | @data b₂ more hr hmore hmax hcontents hunread hcalls harrival =>
            have hgrown : Grown b₁ more b₂ :=
              .refill hr hmore hcontents hunread hcalls harrival
            have hv := hr.valid
            have hnew : new ++ more ≠ [] := by simp [hmore]
            rw [Outcome.andThen_returned]
            split
            · rename_i pos hpos
              obtain ⟨hle, -, hd⟩ := take_delimited hv hpos
              have hpopped := hv.dropDelimited hle
              refine .found (h.trans hgrown) hnew hd ?_ ⟨hpopped.valid, hpopped.size, rfl⟩ rfl
              rw [hpopped.contents]
              exact contents_delimited hv hpos
            · rename_i hnone
              have hd : d ∉ b₂.contents := by
                simpa using fun hd => List.findIdx?_eq_none_iff.mp hnone d hd
              have hpos := List.length_pos_iff.mpr hmore
              refine ih (h.trans hgrown) (fun _ => hd) ?_ hv.contents_le
              rw [hr.size, hcontents, List.length_append]
              omega
        | closed hr hend hcontents hunread hcalls =>
            have hempty := hend.resolve_left (Nat.ne_of_lt hroom)
            exact .closed h hclean hempty ⟨hr, hcontents, hunread⟩
        | failed hr hcontents hsocket hfails =>
            exact .failed h hfails ⟨hr, hcontents, congrArg Socket.unread hsocket⟩
        | waiting hr hcontents hsocket _ hquiet _ =>
            exact .waiting h hquiet ⟨hr, hcontents, congrArg Socket.unread hsocket⟩
      · rename_i hfull
        rw [← h.refilled.valid.length_contents] at hfull
        exact .full h (by omega) hclean

theorem lineEnd (hb : b.Valid) (d : Byte) : LineEnd d b (b.readUntilDelimiter d) := by
  refine lineEnd_loop _ (.refl hb) (fun hne => absurd rfl hne) ?_
  rw [hb.length_contents]
  omega

/-- A call that returns has read from the socket, whatever was in the buffer. -/
theorem returned_of_line (hb : b.Valid) {p : List Byte} (h : (b.readUntilDelimiter d).1 = .returned p) :
    b.contents.length < b.streamBufferSize ∧ b.stream.socket.unread ≠ [] ∧ b.stream.answers ≠ [] := by
  have hend := lineEnd hb d
  generalize b.readUntilDelimiter d = r at hend h
  cases hend with
  | found hgrown hne _ _ _ _ =>
      have hlen := congrArg List.length hgrown.contents
      have hle := hgrown.refilled.valid.contents_le
      have hpos := List.length_pos_iff.mpr hne
      rw [List.length_append] at hlen
      rw [hgrown.refilled.size] at hle
      refine ⟨by omega, ?_, fun hnone => ?_⟩
      · rw [hgrown.unread]
        simp [hne]
      · have hspent := hgrown.spent
        rw [hnone, List.length_nil] at hspent
        omega
  | full => cases h
  | closed => cases h
  | failed => cases h
  | waiting => cases h

/-! ## Sockets that every poll finds readable -/

/-- The polls to come are enough for all the bytes and one more. -/
structure Flowing (b : BufferedStream) : Prop where
  valid : b.Valid
  stopEvent : b.stream.stopEvent = 0
  answers : ∃ left : List Nat, b.stream.answers = left.map .readable ∧
    b.stream.socket.unread.length < left.length

theorem Flowing.grown (hb : Flowing b) (h : Grown b new b₁) : Flowing b₁ where
  valid := h.refilled.valid
  stopEvent := h.refilled.stopEvent.trans hb.stopEvent
  answers := by
    obtain ⟨cuts, hcuts, hlt⟩ := hb.answers
    obtain ⟨left, hleft, hle⟩ := h.answers cuts hcuts
    have hlen := congrArg List.length h.unread
    rw [List.length_append] at hlen
    exact ⟨left, hleft, by omega⟩

theorem Flowing.not_failsWith (hb : Flowing b) {t : SocketExceptionType} :
    ¬ FailsWith b.stream.answers b.stream.stopEvent (-1) t := by
  obtain ⟨left, hleft, -⟩ := hb.answers
  rw [hleft, hb.stopEvent]
  exact FailsWith.not_of_cuts

theorem Flowing.not_quiet (hb : Flowing b) : ¬ ∀ a ∈ b.stream.answers, a = Answer.quiet := by
  obtain ⟨left, hleft, hlt⟩ := hb.answers
  intro hquiet
  cases left with
  | nil => exact absurd hlt (Nat.not_lt_zero _)
  | cons cut left =>
      rw [hleft] at hquiet
      exact absurd (hquiet (.readable cut) (by simp)) (by simp)

theorem Grown.prefix_remaining (h : Grown b new b₁) : b₁.contents <+: b.remaining :=
  h.remaining ▸ List.prefix_append _ _

/-- With room in the buffer and bytes to come, the next segment is returned if it fits. -/
theorem Flowing.next (hb : Flowing b) {p rest : List Byte} (hrem : b.remaining = p ++ d :: rest)
    (hd : d ∉ p) (hfits : p.length < b.streamBufferSize) (hroom : b.contents.length < b.streamBufferSize)
    (hunread : b.stream.socket.unread ≠ []) :
    (b.readUntilDelimiter d).1 = .returned p ∧ Flowing (b.readUntilDelimiter d).2 ∧
      (b.readUntilDelimiter d).2.remaining = rest ∧
      (b.readUntilDelimiter d).2.streamBufferSize = b.streamBufferSize := by
  have hend := lineEnd hb.valid d
  generalize b.readUntilDelimiter d = r at hend ⊢
  cases hend with
  | @found new p' b₁ b' hgrown _ hp' hcontents hr hstream =>
      have hflow := hb.grown hgrown
      have hsplit : p' ++ d :: b'.remaining = p ++ d :: rest := by
        rw [← hrem, ← hgrown.remaining, remaining, remaining, hcontents, hstream, List.append_assoc,
          List.cons_append]
      obtain ⟨rfl, rfl⟩ := Delimited.append_cons_inj hp' hd hsplit
      refine ⟨rfl, ⟨hr.valid, hr.stopEvent.trans hflow.stopEvent, ?_⟩, rfl, hr.size.trans hgrown.refilled.size⟩
      rw [hstream]
      exact hflow.answers
  | @full new b' hgrown hfull hclean =>
      -- the buffer was not full before, so its bytes have been looked at
      have hne : new ≠ [] := by
        rintro rfl
        rw [hgrown.contents, List.append_nil, hgrown.refilled.size] at hfull
        omega
      have hprefix := Delimited.prefix_of_notMem (hrem ▸ hgrown.prefix_remaining) (hclean hne)
      have hle := hprefix.length_le
      rw [hgrown.refilled.size] at hfull
      omega
  | @closed new b₁ b' hgrown hclean hempty _ =>
      have hne : new ≠ [] := by
        rintro rfl
        exact hunread (hgrown.unread.trans hempty)
      have hall : b₁.contents = p ++ d :: rest := by
        rw [← hrem, ← hgrown.remaining, remaining, hempty, List.append_nil]
      exact absurd (by simp [hall]) (hclean hne)
  | failed hgrown hfails _ => exact absurd hfails (hb.grown hgrown).not_failsWith
  | waiting hgrown hquiet _ => exact absurd hquiet (hb.grown hgrown).not_quiet

/-- Without a delimiter to come, and with room for what comes, the end of the stream is reported. -/
theorem Flowing.last (hb : Flowing b) (hd : d ∉ b.remaining)
    (hfits : b.remaining.length < b.streamBufferSize) :
    (b.readUntilDelimiter d).1.ThrewType .SOCKET_CLOSED := by
  have hend := lineEnd hb.valid d
  generalize b.readUntilDelimiter d = r at hend ⊢
  cases hend with
  | @found new p' b₁ b' hgrown _ _ hcontents _ _ =>
      exact absurd (hgrown.prefix_remaining.subset (by simp [hcontents])) hd
  | @full new b' hgrown hfull _ =>
      have hle := hgrown.prefix_remaining.length_le
      rw [hgrown.refilled.size] at hfull
      omega
  | closed => simp
  | failed hgrown hfails _ => exact absurd hfails (hb.grown hgrown).not_failsWith
  | waiting hgrown hquiet _ => exact absurd hquiet (hb.grown hgrown).not_quiet

/-! ## Successive calls -/

theorem beforeLine_valid (hb : b.Valid) (d : Byte) (k : Nat) :
    (b.beforeLine d k).Valid ∧ (b.beforeLine d k).streamBufferSize = b.streamBufferSize := by
  induction k with
  | zero => exact ⟨hb, rfl⟩
  | succ k ih =>
      have h : Honest True _ _ := .readUntilDelimiter ih.1 d
      exact ⟨h.valid, h.size.trans ih.2⟩

/-- What a call needs before it for its segment to come out. -/
def Supplied (b : BufferedStream) : Prop :=
  b.contents.length < b.streamBufferSize ∧ b.stream.socket.unread ≠ []

/-- The first `k` calls have returned the first `k` segments. -/
structure Delivered (d : Byte) (b : BufferedStream) (segments : List (List Byte)) (tail : List Byte)
    (k : Nat) : Prop where
  flowing : Flowing (b.beforeLine d k)
  remaining : (b.beforeLine d k).remaining = (segments.drop k).flatten ++ tail
  lines : ∀ (j : Nat) (p : List Byte), j < k → segments[j]? = some (p ++ [d]) → b.line d j = .returned p

variable {segments : List (List Byte)} {tail : List Byte} {k : Nat}

/-- Where the `k`-th segment is the next one. -/
theorem Delivered.front (h : Delivered d b segments tail k)
    (hsplit : Delimited.Split d b.remaining segments tail) (hk : k < segments.length) :
    ∃ p, segments[k]? = some (p ++ [d]) ∧ d ∉ p ∧
      (b.beforeLine d k).remaining = p ++ d :: ((segments.drop (k + 1)).flatten ++ tail) := by
  obtain ⟨p, hp, hseg⟩ := hsplit.segment _ (List.getElem_mem hk)
  refine ⟨p, by rw [List.getElem?_eq_getElem hk, hseg], hp, ?_⟩
  rw [h.remaining, List.drop_eq_getElem_cons hk, hseg]
  simp

theorem Delivered.start (hb : Flowing b) (hsplit : Delimited.Split d b.remaining segments tail) :
    Delivered d b segments tail 0 :=
  ⟨hb, hsplit.flatten.symm, fun j _ hj => absurd hj (Nat.not_lt_zero j)⟩

theorem Delivered.step (h : Delivered d b segments tail k) (hb : b.Valid)
    (hsplit : Delimited.Split d b.remaining segments tail) (hk : k < segments.length)
    (hfits : ∀ seg ∈ segments, seg.length ≤ b.streamBufferSize) (hsupplied : Supplied (b.beforeLine d k)) :
    Delivered d b segments tail (k + 1) := by
  obtain ⟨p, hseg, hp, hrem⟩ := h.front hsplit hk
  have hle := hfits _ (List.mem_of_getElem? hseg)
  have hsize := (beforeLine_valid hb d k).2
  rw [List.length_append, List.length_singleton] at hle
  obtain ⟨hline, hflow, hrest, -⟩ := h.flowing.next hrem hp (by omega) hsupplied.1 hsupplied.2
  refine ⟨hflow, hrest, fun j q hj hseg' => ?_⟩
  rcases Nat.lt_succ_iff_lt_or_eq.mp hj with hlt | rfl
  · exact h.lines j q hlt hseg'
  · obtain rfl : p = q := by simpa [hseg] using hseg'
    exact hline

theorem delivered_of_supplied (hb : Flowing b) (hsplit : Delimited.Split d b.remaining segments tail)
    (hfits : ∀ seg ∈ segments, seg.length ≤ b.streamBufferSize)
    (hk : k ≤ segments.length) (hsupplied : ∀ j < k, Supplied (b.beforeLine d j)) :
    Delivered d b segments tail k := by
  induction k with
  | zero => exact .start hb hsplit
  | succ k ih =>
      have hbefore := ih (Nat.le_of_succ_le hk) fun j hj => hsupplied j (Nat.lt_succ_of_lt hj)
      exact hbefore.step hb.valid hsplit hk hfits (hsupplied k (Nat.lt_succ_self k))

/-- All segments come out exactly if no call begins with a full buffer or without bytes to come. -/
theorem deliversLines_iff (hb : Flowing b) (hsplit : Delimited.Split d b.remaining segments tail)
    (hfits : ∀ seg ∈ segments, seg.length ≤ b.streamBufferSize) (htail : tail.length < b.streamBufferSize) :
    DeliversLines d b segments ↔ ∀ k < segments.length, Supplied (b.beforeLine d k) := by
  constructor
  · rintro ⟨hlines, -⟩ k hk
    obtain ⟨p, -, hseg⟩ := hsplit.segment _ (List.getElem_mem hk)
    have hline := hlines k p (by rw [List.getElem?_eq_getElem hk, hseg])
    obtain ⟨hroom, hunread, -⟩ := returned_of_line (beforeLine_valid hb.valid d k).1 hline
    exact ⟨hroom, hunread⟩
  · intro hsupplied
    have hall : Delivered d b segments tail segments.length :=
      delivered_of_supplied hb hsplit hfits (Nat.le_refl _) hsupplied
    have hrem : (b.beforeLine d segments.length).remaining = tail := by
      rw [hall.remaining, List.drop_length, List.flatten_nil, List.nil_append]
    refine ⟨fun k p hseg => hall.lines k p (List.getElem?_eq_some_iff.mp hseg).1 hseg, ?_⟩
    refine hall.flowing.last (hrem ▸ hsplit.tail_clean) ?_
    rw [hrem, (beforeLine_valid hb.valid d _).2]
    exact htail

/-- If the segment that is next is not complete in the buffer, it can be completed. -/
theorem Delivered.supplied (h : Delivered d b segments tail k) (hb : b.Valid)
    (hsplit : Delimited.Split d b.remaining segments tail) (hk : k < segments.length)
    (hfits : ∀ seg ∈ segments, seg.length ≤ b.streamBufferSize)
    (hclean : d ∉ (b.beforeLine d k).contents) : Supplied (b.beforeLine d k) := by
  obtain ⟨p, hseg, -, hrem⟩ := h.front hsplit hk
  have hle := hfits _ (List.mem_of_getElem? hseg)
  have hfront : (b.beforeLine d k).contents <+: p ++ d :: ((segments.drop (k + 1)).flatten ++ tail) :=
    hrem ▸ List.prefix_append _ _
  have hshort := (Delimited.prefix_of_notMem hfront hclean).length_le
  rw [List.length_append, List.length_singleton] at hle
  refine ⟨?_, fun hempty => hclean ?_⟩
  · rw [(beforeLine_valid hb d k).2]
    omega
  · rw [BufferedStream.remaining, hempty, List.append_nil] at hrem
    simp [hrem]

/-- A call that begins with a delimiter in the buffer waits for the socket all the same. -/
theorem needsNoMore_iff (hb : b.Valid) (hsplit : Delimited.Split d b.remaining segments tail) :
    NeedsNoMore d b segments ↔ ∀ k < segments.length, d ∉ (b.beforeLine d k).contents := by
  constructor
  · intro h k hk hmem
    obtain ⟨p, -, hseg⟩ := hsplit.segment _ (List.getElem_mem hk)
    have hreturned := h k p (by rw [List.getElem?_eq_getElem hk, hseg]) hmem
    exact (returned_of_line (beforeLine_valid hb d k).1.withFuture hreturned).2.2 rfl
  · intro h k p hseg hmem
    exact absurd hmem (h k (List.getElem?_eq_some_iff.mp hseg).1)

theorem supplied_of_clean (hb : Flowing b) (hsplit : Delimited.Split d b.remaining segments tail)
    (hfits : ∀ seg ∈ segments, seg.length ≤ b.streamBufferSize)
    (hclean : ∀ k < segments.length, d ∉ (b.beforeLine d k).contents) :
    ∀ k < segments.length, Supplied (b.beforeLine d k) := by
  intro k
  induction k using Nat.strongRecOn with
  | ind k ih =>
      intro hk
      have hbefore := delivered_of_supplied hb hsplit hfits (Nat.le_of_lt hk)
        fun j hj => ih j hj (Nat.lt_trans hj hk)
      exact hbefore.supplied hb.valid hsplit hk hfits (hclean k hk)

/-! ## Calls after one that did not return -/

theorem Kept.not_supplied (h : Kept b b') (hb : ¬ Supplied b) : ¬ Supplied b' := by
  rwa [Supplied, h.contents, h.size, h.unread]

/-- Nothing can be added to a buffer that is full, or when no bytes are left. -/
theorem Grown.not_supplied (h : Grown b new b₁) (hb : ¬ Supplied b) : ¬ Supplied b₁ := by
  intro hsupplied
  have hlen := congrArg List.length h.contents
  rw [List.length_append] at hlen
  have hroom := hsupplied.1
  rw [h.refilled.size] at hroom
  exact hb ⟨by omega, fun hempty => hsupplied.2 (List.append_eq_nil_iff.mp (h.unread ▸ hempty)).2⟩

theorem not_supplied_after (hb : b.Valid) (h : ¬ Supplied b) :
    ¬ Supplied (b.readUntilDelimiter d).2 := by
  have hend := lineEnd hb d
  have hreturned (p : List Byte) (hp : (b.readUntilDelimiter d).1 = .returned p) : False :=
    h ⟨(returned_of_line hb hp).1, (returned_of_line hb hp).2.1⟩
  generalize b.readUntilDelimiter d = r at hend hreturned ⊢
  cases hend with
  | found => exact (hreturned _ rfl).elim
  | full hgrown => exact hgrown.not_supplied h
  | closed hgrown _ _ hkept => exact hkept.not_supplied (hgrown.not_supplied h)
  | failed hgrown _ hkept => exact hkept.not_supplied (hgrown.not_supplied h)
  | waiting hgrown _ hkept => exact hkept.not_supplied (hgrown.not_supplied h)

/-- On a socket that is always readable, only a full buffer or the end of the stream stop a call. -/
theorem Flowing.not_supplied_after (hb : Flowing b) (h : ∀ p, (b.readUntilDelimiter d).1 ≠ .returned p) :
    ¬ Supplied (b.readUntilDelimiter d).2 := by
  have hend := lineEnd hb.valid d
  generalize b.readUntilDelimiter d = r at hend h ⊢
  cases hend with
  | found => exact absurd rfl (h _)
  | full _ hfull _ => exact fun hsupplied => absurd hsupplied.1 (Nat.not_lt.mpr (Nat.le_of_eq hfull.symm))
  | closed _ _ hempty hkept => exact fun hsupplied => hsupplied.2 (hkept.unread.trans hempty)
  | failed hgrown hfails _ => exact absurd hfails (hb.grown hgrown).not_failsWith
  | waiting hgrown hquiet _ => exact absurd hquiet (hb.grown hgrown).not_quiet

/-- Before each call the segments so far have come out, or no call returns from then on. -/
theorem delivered_or_not_supplied (hb : Flowing b) (hsplit : Delimited.Split d b.remaining segments tail)
    (hfits : ∀ seg ∈ segments, seg.length ≤ b.streamBufferSize) (k : Nat) :
    Delivered d b segments tail k ∨ ¬ Supplied (b.beforeLine d k) := by
  induction k with
  | zero => exact .inl (.start hb hsplit)
  | succ k ih =>
      have hvalid := (beforeLine_valid hb.valid d k).1
      by_cases hsupplied : Supplied (b.beforeLine d k)
      · have hbefore : Delivered d b segments tail k := ih.resolve_right (not_not.mpr hsupplied)
        rcases Nat.lt_or_ge k segments.length with hk | hk
        · exact .inl (hbefore.step hb.valid hsplit hk hfits hsupplied)
        · refine .inr (hbefore.flowing.not_supplied_after fun p hp => ?_)
          have hrem := hbefore.remaining
          rw [List.drop_of_length_le hk, List.flatten_nil, List.nil_append] at hrem
          have hgiven := (Conserves.readUntilDelimiterLoop d _ hvalid).returned p hp
          exact hsplit.tail_clean (by rw [← hrem, ← hgiven]; simp)
      · exact .inr (BufferedStream.not_supplied_after hvalid hsupplied)

/-- The `k`-th call returns the `k`-th segment without its delimiter, if it returns at all. -/
theorem segment_of_line (hb : Flowing b) (hsplit : Delimited.Split d b.remaining segments tail)
    (hfits : ∀ seg ∈ segments, seg.length ≤ b.streamBufferSize) {p : List Byte}
    (h : b.line d k = .returned p) : segments[k]? = some (p ++ [d]) := by
  have hvalid := (beforeLine_valid hb.valid d k).1
  obtain ⟨hroom, hunread, -⟩ := returned_of_line hvalid h
  have hbefore : Delivered d b segments tail k :=
    (delivered_or_not_supplied hb hsplit hfits k).resolve_right (not_not.mpr ⟨hroom, hunread⟩)
  have hgiven := (Conserves.readUntilDelimiterLoop d _ hvalid).returned p h
  rcases Nat.lt_or_ge k segments.length with hk | hk
  · obtain ⟨q, hseg, hq, hrem⟩ := hbefore.front hsplit hk
    have hp : d ∉ p := not_mem_of_readUntilDelimiterLoop _ hvalid (Prod.ext h rfl)
    rw [hrem, List.append_assoc, List.singleton_append] at hgiven
    rw [hseg, (Delimited.append_cons_inj hp hq hgiven).1]
  · have hrem := hbefore.remaining
    rw [List.drop_of_length_le hk, List.flatten_nil, List.nil_append, ← hgiven] at hrem
    exact absurd (by rw [← hrem]; simp) hsplit.tail_clean

/-- From an empty buffer the first call returns, if there is a segment at all. -/
theorem Flowing.first_line (hb : Flowing b) (hsplit : Delimited.Split d b.remaining segments tail)
    (hfits : ∀ seg ∈ segments, seg.length ≤ b.streamBufferSize) (hempty : b.contents = [])
    (hmem : d ∈ b.remaining) :
    ∃ p rest, d ∉ p ∧ b.remaining = p ++ d :: rest ∧ b.line d 0 = .returned p := by
  have hpos : 0 < segments.length := by
    by_contra hnone
    have hnil := List.eq_nil_of_length_eq_zero (Nat.eq_zero_of_not_pos hnone)
    refine hsplit.tail_clean ?_
    rwa [← hsplit.flatten, hnil, List.flatten_nil, List.nil_append] at hmem
  have hstart := Delivered.start hb hsplit
  have hsupplied : Supplied b := hstart.supplied hb.valid hsplit hpos hfits (by simp [beforeLine, hempty])
  obtain ⟨p, hseg, hp, hrem⟩ := hstart.front hsplit hpos
  have hfirst := hstart.step hb.valid hsplit hpos hfits hsupplied
  exact ⟨p, _, hp, hrem, hfirst.lines 0 p (Nat.lt_succ_self 0) hseg⟩

/-! ## Streams cut as given -/

section

variable {N : Nat} {bytes : List Byte} {cuts : List Nat}

@[simp] theorem contents_cutStream : (cutStream N bytes cuts).contents = [] := contents_make _ _

@[simp] theorem remaining_cutStream : (cutStream N bytes cuts).remaining = bytes := by
  rw [remaining, contents_cutStream]
  rfl

theorem flowing_cutStream (N : Nat) (hcuts : bytes.length < cuts.length) :
    Flowing (cutStream N bytes cuts) :=
  ⟨.make _ _, rfl, cuts, rfl, hcuts⟩

theorem split_cutStream (d : Byte) (N : Nat) (bytes : List Byte) (cuts : List Nat) :
    Delimited.Split d (cutStream N bytes cuts).remaining (Delimited.splitAfter d bytes).1
      (Delimited.splitAfter d bytes).2 := by
  rw [remaining_cutStream]
  exact Delimited.split_splitAfter d bytes

end

/-! ## A full buffer -/

theorem reportsFull_iff (hb : b.Valid) (d : Byte) :
    ReportsFull d b ↔ (b.contents.length = b.streamBufferSize → d ∉ b.contents) := by
  constructor
  · intro h hfull
    have hout : b.readUntilDelimiter d =
        (.threw (.logicError "could not find delimiter, even though the buffer is full"), b) := by
      rw [readUntilDelimiter, ← hfull, hb.length_contents, Nat.sub_self, readUntilDelimiterLoop]
    have hclean := (h _ (congrArg Prod.fst hout)).2.1
    rwa [hout] at hclean
  · intro h what hthrew
    have hend := lineEnd hb d
    generalize b.readUntilDelimiter d = r at hend hthrew ⊢
    cases hend with
    | found => cases hthrew
    | @full new b' hgrown hfull hclean =>
        rw [hgrown.refilled.size] at hfull
        refine ⟨hfull, ?_, new, hgrown.received, hgrown.contents⟩
        by_cases hne : new = []
        · have hsame : b'.contents = b.contents := by rw [hgrown.contents, hne, List.append_nil]
          rw [hsame] at hfull ⊢
          exact h hfull
        · exact hclean hne
    | closed => cases hthrew
    | failed => cases hthrew
    | waiting => cases hthrew

end BufferedStream

end SocketWrapper
