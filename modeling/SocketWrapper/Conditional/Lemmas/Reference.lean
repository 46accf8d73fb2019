import SocketWrapper.Conditional.Reference

/-!
# The dispatch compared with the reference

The code removes the segment of the first handler that matches, as the reference does, and dispatches
the remaining data. After that its loop goes on over the later handlers with the data it started from.
A later handler that matches this data either takes a segment that the reference does not, or makes
the call throw.
-/

namespace SocketWrapper

open ConditionalBufferedStream

variable {S : Setup} {s s' : ConditionalBufferedStream} {hs post : List ContractedHandler}
  {data : List Byte} {rest : List BufferEventHandler}
  {recur : List Byte → ConditionalBufferedStream → Outcome Unit × ConditionalBufferedStream}

/-! ## Handlers that do not match -/

/-- Conditions that were asked about `data` while the buffer was `buffer`. -/
def AskedAbout (data buffer : List Byte) (es : List Evaluation) : Prop :=
  ∀ e ∈ es, e.data = data ∧ e.buffer = buffer

theorem dispatchHandlers_skip
    (recur : List Byte → ConditionalBufferedStream → Outcome Unit × ConditionalBufferedStream)
    (rest : List BufferEventHandler) (hs : s.stream.Valid) (pre : List ContractedHandler)
    (hz : ∀ h ∈ pre, h.condition data = 0) :
    ∃ s' es, dispatchHandlers S recur data (pre.map ContractedHandler.toHandler ++ rest) s =
        dispatchHandlers S recur data rest s' ∧
      Extends s [] s' ∧ s'.contents = s.contents ∧
      s'.evaluations = s.evaluations ++ es ∧ AskedAbout data s.contents es ∧
      es.length = pre.length := by
  induction pre generalizing s with
  | nil => exact ⟨s, [], rfl, .refl hs, rfl, by simp, by simp [AskedAbout], rfl⟩
  | cons h pre ih =>
      have hv : (s.evaluate h.toHandler data).1 = 0 := hz h (by simp)
      have hext := Extends.evaluate hs h.toHandler data
      obtain ⟨s', es, heq, hext', hcontents, heval, hasked, hlen⟩ :=
        ih hext.valid (fun g hg => hz g (by simp [hg]))
      refine ⟨s', ⟨h.fd, data, s.contents, 0⟩ :: es, ?_, hext.trans hext', hcontents, ?_, ?_, ?_⟩
      · rw [List.map_cons, List.cons_append, dispatchHandlers_cons, hv, absSize_zero, if_neg (by simp),
          if_pos rfl, heq]
      · rw [heval, ← hz h (by simp)]
        simp [evaluate, ContractedHandler.toHandler, contents]
      · intro e he
        rcases List.mem_cons.mp he with rfl | he
        · exact ⟨rfl, rfl⟩
        · exact hasked e he
      · simp [hlen]

theorem dispatchHandlers_none
    (recur : List Byte → ConditionalBufferedStream → Outcome Unit × ConditionalBufferedStream)
    (hs : s.stream.Valid) (hz : ∀ h ∈ post, h.condition data = 0) :
    ∃ s' es, dispatchHandlers S recur data (post.map ContractedHandler.toHandler) s =
        (.returned (), s') ∧
      Extends s [] s' ∧ s'.contents = s.contents ∧
      s'.evaluations = s.evaluations ++ es ∧ AskedAbout data s.contents es ∧
      es.length = post.length := by
  simpa [dispatchHandlers] using dispatchHandlers_skip (S := S) recur [] hs post hz

theorem none_of_dispatchHandlers (hs : s.stream.Valid)
    (hrec : ∀ d s', s'.stream.Valid → Dispatched s' (recur d s')) {u : Unit}
    (hret : dispatchHandlers S recur data (post.map ContractedHandler.toHandler) s = (.returned u, s'))
    (hext : Extends s [] s') : ∀ h ∈ post, h.condition data = 0 := by
  induction post generalizing s with
  | nil => simp
  | cons h post ih =>
      have hev := Extends.evaluate hs h.toHandler data
      rw [List.map_cons, dispatchHandlers_cons] at hret
      split at hret
      · cases hret
      · split at hret
        · rename_i hv
          have hext' : Extends (s.evaluate h.toHandler data).2 [] s' := by
            obtain ⟨rs, hrs⟩ := Dispatched.dispatchHandlers (S := S) data hev.valid
              (post.map ContractedHandler.toHandler) hrec
            rw [hret] at hrs
            have hnil := (hev.trans hrs).removals.symm.trans hext.removals
            obtain rfl : rs = [] := by simpa using hnil
            exact hrs
          intro g hg
          rcases List.mem_cons.mp hg with rfl | hg
          · exact hv
          · exact ih hev.valid hret hext' g hg
        · -- a match removes at least one segment
          obtain ⟨_, s₁, hserve, hloop⟩ := Outcome.andThen_returned_inv hret
          obtain ⟨r, rs, hgrow⟩ := serve_grows hev.valid hrec hserve
          obtain ⟨rs', hrs'⟩ := Dispatched.dispatchHandlers (S := S) data hgrow.valid
            (post.map ContractedHandler.toHandler) hrec
          rw [hloop] at hrs'
          have hnil := ((hev.trans hgrow).trans hrs').removals.symm.trans hext.removals
          simp at hnil

/-! ## One level of the recursion -/

namespace Reference

variable {g : ContractedHandler} {pre : List ContractedHandler} {x : List Byte}

theorem firstMatch_eq_none (h : firstMatch hs x = none) : ∀ g ∈ hs, g.condition x = 0 := by
  simpa [firstMatch, List.find?_eq_none] using h

theorem firstMatch_eq_some (h : firstMatch hs x = some g) :
    ∃ pre post, hs = pre ++ g :: post ∧ (∀ h ∈ pre, h.condition x = 0) ∧ g.condition x ≠ 0 := by
  obtain ⟨hg, pre, post, heq, hpre⟩ := List.find?_eq_some_iff_append.mp h
  exact ⟨pre, post, heq, by simpa using hpre, by simpa using hg⟩

theorem cut_of_none (h : firstMatch hs x = none) : (dispatcher hs).cut () x = none := by
  simp [dispatcher, h]

theorem cut_of_some (h : firstMatch hs x = some g) : (dispatcher hs).cut () x =
    some ((g.condition x).toInt.natAbs, (g.fd, g.condition x), ()) := by
  simp [dispatcher, h]

theorem removals_of_none (h : firstMatch hs x = none) : removals hs x = [] := by
  simp [removals, Segmenter.drain_none (cut_of_none h)]

theorem removals_of_some (h : firstMatch hs x = some g) : removals hs x =
    ⟨g.fd, g.condition x, x.take (g.condition x).toInt.natAbs⟩ ::
      removals hs (x.drop (g.condition x).toInt.natAbs) := by
  simp [removals, Segmenter.drain_some (cut_of_some h)]

theorem removals_bytes (hs : List ContractedHandler) (x : List Byte) :
    ((removals hs x).map Removal.segment).flatten ++ remaining hs x = x := by
  have h := (dispatcher hs).drain_flatten () x
  simpa [removals, remaining, List.map_map, Function.comp_def] using h

theorem process_of_none (hS : S.handlers = hs.map ContractedHandler.toHandler) (hv : s.stream.Valid)
    (h : firstMatch hs s.contents = none) :
    ∃ s' es, s.processDataSendSignals S s.contents = (.returned (), s') ∧ Extends s [] s' ∧
      s'.evaluations = s.evaluations ++ es ∧ AskedAbout s.contents s.contents es := by
  rw [processDataSendSignals_eq]
  split
  · exact ⟨s, [], rfl, .refl hv, by simp, by simp [AskedAbout]⟩
  · rw [hS]
    obtain ⟨s', es, heq, hext, -, heval, hasked, -⟩ :=
      dispatchHandlers_none (S := S)
      (fun d s => s.processDataSendSignals S d) hv (firstMatch_eq_none h)
    exact ⟨s', es, heq, hext, heval, hasked⟩

theorem data_ne_nil (hne : g.condition x ≠ 0) : x ≠ [] := by
  rintro rfl
  have hle := g.contract []
  have hpos := natAbs_toInt_pos hne
  simp only [List.length_nil] at hle
  omega

/-- Where `g` matches first, the loop serves `g`, dispatches the remaining data, and goes on over the
handlers registered after `g` with the same data. -/
theorem process_of_some (hS : S.handlers = (pre ++ g :: post).map ContractedHandler.toHandler)
    (hv : s.stream.Valid) (hp : s.PostsSucceed S) (hpre : ∀ h ∈ pre, h.condition s.contents = 0)
    (hne : g.condition s.contents ≠ 0)
    (hle : absSize (g.condition s.contents) ≤ s.contents.length) :
    ∃ s₁ es, s.processDataSendSignals S s.contents =
        Outcome.andThen
          (s₁.processDataSendSignals S (s.contents.drop (absSize (g.condition s.contents))))
          (fun _ s₂ => dispatchHandlers S (fun d s => s.processDataSendSignals S d) s.contents
            (post.map ContractedHandler.toHandler) s₂) ∧
      Extends s [⟨g.fd, g.condition s.contents,
        s.contents.take (absSize (g.condition s.contents))⟩] s₁ ∧
      s₁.contents = s.contents.drop (absSize (g.condition s.contents)) ∧
      s₁.evaluations = s.evaluations ++ es ∧ AskedAbout s.contents s.contents es := by
  obtain ⟨s₀, es, hskip, hext₀, hcontents₀, heval₀, hasked, -⟩ :=
    dispatchHandlers_skip (S := S) (fun d s => s.processDataSendSignals S d)
      ((g :: post).map ContractedHandler.toHandler) hv pre hpre
  have hvalue : (s₀.evaluate g.toHandler s.contents).1 = g.condition s.contents := rfl
  have hev := Extends.evaluate hext₀.valid g.toHandler s.contents
  have hcontents : (s₀.evaluate g.toHandler s.contents).2.contents = s.contents := hcontents₀
  have hp₀ := (hext₀.trans hev).postsSucceed hp
  obtain ⟨s₁, hserve, hext₁, hcontents₁, heval₁⟩ := serve_eq
    (fun d s => s.processDataSendSignals S d) s.contents g.fd
    (g.condition s.contents) hev.valid hp₀ (hcontents.symm ▸ hle)
  refine ⟨s₁, es ++ [⟨g.fd, s.contents, s.contents, g.condition s.contents⟩], ?_, ?_, ?_, ?_, ?_⟩
  · rw [processDataSendSignals_eq, if_neg (data_ne_nil hne), hS, List.map_append, hskip, List.map_cons,
      dispatchHandlers_cons, hvalue, if_neg (Nat.not_lt.mpr hle), if_neg hne]
    exact congrArg (fun r => Outcome.andThen r _) hserve
  · rw [hcontents] at hext₁
    exact (hext₀.trans hev).trans hext₁
  · rw [hcontents₁, hcontents]
  · rw [heval₁, ← List.append_assoc, ← heval₀, ← hcontents₀]
    simp [evaluate, ContractedHandler.toHandler, contents]
  · intro e he
    rcases List.mem_append.mp he with he | he
    · exact hasked e he
    · rw [List.mem_singleton.mp he]
      exact ⟨rfl, rfl⟩

theorem process_of_too_much (hS : S.handlers = (pre ++ g :: post).map ContractedHandler.toHandler)
    (hv : s.stream.Valid) (hpre : ∀ h ∈ pre, h.condition s.contents = 0)
    (hne : g.condition s.contents ≠ 0)
    (hlt : s.contents.length < absSize (g.condition s.contents)) :
    (s.processDataSendSignals S s.contents).1 = .threw tooMuchData := by
  obtain ⟨s₀, es, hskip, -⟩ :=
    dispatchHandlers_skip (S := S) (fun d s => s.processDataSendSignals S d)
      ((g :: post).map ContractedHandler.toHandler) hv pre hpre
  have hvalue : (s₀.evaluate g.toHandler s.contents).1 = g.condition s.contents := rfl
  rw [processDataSendSignals_eq, if_neg (data_ne_nil hne), hS, List.map_append, hskip, List.map_cons,
    dispatchHandlers_cons, hvalue, if_pos hlt]

/-! ## The buffers that the reference looks at -/

theorem segment_induction (hs : List ContractedHandler) {P : List Byte → Prop}
    (stop : ∀ x, firstMatch hs x = none → P x)
    (step : ∀ x g, firstMatch hs x = some g → P (x.drop (g.condition x).toInt.natAbs) → P x)
    (x : List Byte) : P x := by
  refine Segmenter.cut_induction (P := fun _ x => P x) (dispatcher hs) ?_ ?_ () x
  · intro _ x hcut
    exact stop x (by simpa [dispatcher] using hcut)
  · intro _ x n b _ hcut ih
    obtain ⟨g, hg, heq⟩ := Option.map_eq_some_iff.mp hcut
    obtain ⟨rfl, -⟩ := Prod.mk.inj heq
    exact step x g hg ih

variable {P : List Byte → Prop}

theorem LooksAt.forall_of_none (h : firstMatch hs x = none) :
    (∀ y, LooksAt hs x y → P y) ↔ P x := by
  simp [LooksAt, Segmenter.Reaches.stop_iff (cut_of_none h)]

theorem LooksAt.forall_of_some (h : firstMatch hs x = some g) :
    (∀ y, LooksAt hs x y → P y) ↔
      P x ∧ ∀ y, LooksAt hs (x.drop (g.condition x).toInt.natAbs) y → P y := by
  have hsplit := Segmenter.Reaches.forall_step_iff (cut_of_some h) (P := P)
  constructor
  · exact fun hall => ⟨(hsplit.mp fun _ => hall).1, (hsplit.mp fun _ => hall).2 ()⟩
  · exact fun hall => hsplit.mpr ⟨hall.1, fun _ => hall.2⟩ ()

theorem oneMatch_of_none (h : firstMatch hs x = none) : OneMatch hs x := by
  have hz := firstMatch_eq_none h
  refine ⟨List.pairwise_of_forall_mem_list fun a ha b _ => .inl (hz a ha), ?_⟩
  intro g hg
  rw [hz g hg]
  decide

theorem oneMatch_iff (hpre : ∀ h ∈ pre, h.condition x = 0) (hne : g.condition x ≠ 0) :
    OneMatch (pre ++ g :: post) x ↔
      g.condition x ≠ Int32.minValue ∧ ∀ h ∈ post, h.condition x = 0 := by
  have hzero : (0 : Int32) ≠ Int32.minValue := by decide
  constructor
  · rintro ⟨hdisj, hmin⟩
    refine ⟨hmin g (by simp), fun h hh => ?_⟩
    have hpair := (List.pairwise_append.mp hdisj).2.1
    exact ((List.pairwise_cons.mp hpair).1 h hh).resolve_left hne
  · rintro ⟨hmin, hpost⟩
    refine ⟨?_, ?_⟩
    · rw [List.pairwise_append, List.pairwise_cons]
      refine ⟨List.pairwise_of_forall_mem_list fun a ha b _ => .inl (hpre a ha), ⟨?_, ?_⟩, ?_⟩
      · exact fun h hh => .inr (hpost h hh)
      · exact List.pairwise_of_forall_mem_list fun a ha b _ => .inl (hpost a ha)
      · exact fun a ha b _ => .inl (hpre a ha)
    · intro h hh
      rcases List.mem_append.mp hh with hh | hh
      · exact hpre h hh ▸ hzero
      · rcases List.mem_cons.mp hh with rfl | hh
        · exact hmin
        · exact hpost h hh ▸ hzero

/-! ## The comparison -/

/-- If the call returned and removed nothing beyond the reference, no two conditions ever matched. -/
theorem oneMatch_of_returned (hS : S.handlers = hs.map ContractedHandler.toHandler) (x : List Byte) :
    ∀ (s s' : ConditionalBufferedStream) (rs : List Removal), s.stream.Valid → s.contents = x →
      s.PostsSucceed S → s.processDataSendSignals S x = (.returned (), s') → Extends s rs s' →
      rs <+: removals hs x →
      rs = removals hs x ∧ ∀ y, LooksAt hs x y → OneMatch hs y := by
  induction x using segment_induction hs with
  | stop x h =>
      rintro s s' rs - - - - - hrs
      rw [removals_of_none h] at hrs ⊢
      exact ⟨List.prefix_nil.mp hrs, (LooksAt.forall_of_none h).mpr (oneMatch_of_none h)⟩
  | step x g h ih =>
      rintro s s' rs hv rfl hp hret hext hrs
      obtain ⟨pre, post, rfl, hpre, hne⟩ := firstMatch_eq_some h
      rcases Nat.lt_or_ge s.contents.length (absSize (g.condition s.contents)) with hlt | hle
      · have hthrew := process_of_too_much hS hv hpre hne hlt
        rw [hret] at hthrew
        cases hthrew
      · obtain ⟨s₁, es, heq, hext₁, hcontents₁, -, -⟩ := process_of_some hS hv hp hpre hne hle
        rw [heq] at hret
        obtain ⟨_, s₂, hrec, hloop⟩ := Outcome.andThen_returned_inv hret
        obtain ⟨rs₂, hext₂⟩ := Dispatched.processDataSendSignals (S := S) hext₁.valid
          (s.contents.drop (absSize (g.condition s.contents)))
        rw [hrec] at hext₂
        have hall : ∀ d s', s'.stream.Valid → Dispatched s' (s'.processDataSendSignals S d) :=
          fun d s' hs' => .processDataSendSignals hs' d
        obtain ⟨rs₃, hext₃⟩ := Dispatched.dispatchHandlers (S := S) s.contents hext₂.valid
          (post.map ContractedHandler.toHandler) hall
        rw [hloop] at hext₃
        have hsum : rs = ⟨g.fd, g.condition s.contents,
            s.contents.take (absSize (g.condition s.contents))⟩ :: (rs₂ ++ rs₃) := by
          have := hext.removals.symm.trans ((hext₁.trans hext₂).trans hext₃).removals
          simpa using this
        subst hsum
        rw [removals_of_some h] at hrs ⊢
        obtain ⟨hhead, htail⟩ := List.cons_prefix_cons.mp hrs
        -- the first segment has the length that the reference takes
        have hlen : absSize (g.condition s.contents) = (g.condition s.contents).toInt.natAbs := by
          have hseg := congrArg (fun r => r.segment.length) hhead
          simp only [List.length_take] at hseg
          have hcontract := g.contract s.contents
          omega
        have hmin := absSize_eq_natAbs_iff.mp hlen
        rw [hlen] at hrec hcontents₁
        obtain ⟨hrs₂, hrest⟩ := ih s₁ s₂ rs₂ hext₁.valid hcontents₁ (hext₁.postsSucceed hp) hrec hext₂
          ((List.prefix_append _ _).trans htail)
        have hrs₃ : rs₃ = [] := by
          have hle' := htail.length_le
          rw [hrs₂, List.length_append] at hle'
          exact List.eq_nil_of_length_eq_zero (by omega)
        subst hrs₃
        have hpost := none_of_dispatchHandlers hext₂.valid hall hloop hext₃
        refine ⟨by rw [hhead, hrs₂, List.append_nil], ?_⟩
        exact (LooksAt.forall_of_some h).mpr ⟨(oneMatch_iff hpre hne).mpr ⟨hmin, hpost⟩, hrest⟩

theorem onlyLastMatches_of_none (h : firstMatch hs x = none) : OnlyLastMatches hs x :=
  ⟨fun g hg => firstMatch_eq_none h g (List.dropLast_subset hs hg), (oneMatch_of_none h).ne_min⟩

theorem OnlyLastMatches.post_eq_nil (hx : OnlyLastMatches (pre ++ g :: post) x)
    (hne : g.condition x ≠ 0) : post = [] := by
  cases post with
  | nil => rfl
  | cons h post =>
      refine absurd (hx.others g ?_) hne
      rw [List.dropLast_append_of_ne_nil (by simp), List.dropLast_cons_of_ne_nil (by simp)]
      simp

theorem onlyLastMatches_iff (hpre : ∀ h ∈ pre, h.condition x = 0) (hne : g.condition x ≠ 0)
    (hone : OneMatch (pre ++ g :: post) x) : OnlyLastMatches (pre ++ g :: post) x ↔ post = [] := by
  constructor
  · exact fun hx => hx.post_eq_nil hne
  · rintro rfl
    refine ⟨fun h hh => hpre h ?_, hone.ne_min⟩
    simpa using hh

theorem OnlyLastMatches.oneMatch (hx : OnlyLastMatches hs x) : OneMatch hs x := by
  cases h : firstMatch hs x with
  | none => exact oneMatch_of_none h
  | some g =>
      obtain ⟨pre, post, rfl, hpre, hne⟩ := firstMatch_eq_some h
      obtain rfl := hx.post_eq_nil hne
      exact (oneMatch_iff hpre hne).mpr ⟨hx.ne_min g (by simp), by simp⟩

/-- If no two conditions ever match, the call does what the reference does. It asks a condition about
data that is no longer the buffer where a handler is registered after one that matches. -/
theorem returned_of_oneMatch (hS : S.handlers = hs.map ContractedHandler.toHandler) (x : List Byte) :
    ∀ s : ConditionalBufferedStream, s.stream.Valid → s.contents = x → s.PostsSucceed S →
      (∀ y, LooksAt hs x y → OneMatch hs y) →
      ∃ s' es, s.processDataSendSignals S x = (.returned (), s') ∧ Extends s (removals hs x) s' ∧
        s'.evaluations = s.evaluations ++ es ∧
        ((∀ e ∈ es, e.data = e.buffer) ↔ ∀ y, LooksAt hs x y → OnlyLastMatches hs y) := by
  induction x using segment_induction hs with
  | stop x h =>
      rintro s hv rfl - -
      obtain ⟨s', es, hret, hext, heval, hasked⟩ := process_of_none hS hv h
      refine ⟨s', es, hret, by rwa [removals_of_none h], heval, ?_⟩
      rw [LooksAt.forall_of_none h]
      exact iff_of_true (fun e he => (hasked e he).1.trans (hasked e he).2.symm)
        (onlyLastMatches_of_none h)
  | step x g h ih =>
      rintro s hv rfl hp hall
      obtain ⟨pre, post, rfl, hpre, hne⟩ := firstMatch_eq_some h
      obtain ⟨hhere, hrest⟩ := (LooksAt.forall_of_some h).mp hall
      obtain ⟨hmin, hpost⟩ := (oneMatch_iff hpre hne).mp hhere
      have hlen := absSize_eq hmin
      have hle : absSize (g.condition s.contents) ≤ s.contents.length := hlen ▸ g.contract s.contents
      obtain ⟨s₁, es₁, heq, hext₁, hcontents₁, heval₁, hasked₁⟩ :=
        process_of_some hS hv hp hpre hne hle
      rw [hlen] at heq hext₁ hcontents₁
      obtain ⟨s₂, es₂, hret₂, hext₂, heval₂, hcurrent₂⟩ :=
        ih s₁ hext₁.valid hcontents₁ (hext₁.postsSucceed hp) hrest
      obtain ⟨s₃, es₃, hret₃, hext₃, -, heval₃, hasked₃, hlen₃⟩ := dispatchHandlers_none (S := S)
        (fun d s => s.processDataSendSignals S d) hext₂.valid hpost
      refine ⟨s₃, es₁ ++ es₂ ++ es₃, ?_, ?_, ?_, ?_⟩
      · rw [heq, hret₂, Outcome.andThen_returned, hret₃]
      · have hext := (hext₁.trans hext₂).trans hext₃
        rw [removals_of_some h]
        simpa using hext
      · rw [heval₃, heval₂, heval₁]
        simp only [List.append_assoc]
      · -- the buffer has become shorter by the time the later handlers are asked
        have hshort : s₂.contents.length < s.contents.length := by
          have hbytes := congrArg List.length hext₂.bytes
          have hpos := natAbs_toInt_pos hne
          have hcontract := g.contract s.contents
          simp only [List.length_append, hcontents₁, List.length_drop] at hbytes
          omega
        have hcurrent₁ : ∀ e ∈ es₁, e.data = e.buffer :=
          fun e he => (hasked₁ e he).1.trans (hasked₁ e he).2.symm
        have hcurrent₃ : (∀ e ∈ es₃, e.data = e.buffer) ↔ post = [] := by
          constructor
          · intro hall₃
            cases es₃ with
            | nil => exact List.eq_nil_of_length_eq_zero hlen₃.symm
            | cons e es₃ =>
                obtain ⟨hdata, hbuffer⟩ := hasked₃ e (by simp)
                have heq := hall₃ e (by simp)
                rw [hdata, hbuffer] at heq
                rw [heq] at hshort
                exact absurd hshort (Nat.lt_irrefl _)
          · rintro rfl
            simp [List.eq_nil_of_length_eq_zero hlen₃]
        rw [LooksAt.forall_of_some h, onlyLastMatches_iff hpre hne hhere, ← hcurrent₂, ← hcurrent₃]
        constructor
        · intro hes
          exact ⟨fun e he => hes e (by simp [he]), fun e he => hes e (by simp [he])⟩
        · rintro ⟨hall₃, hall₂⟩ e he
          rcases List.mem_append.mp he with he | he
          · rcases List.mem_append.mp he with he | he
            · exact hcurrent₁ e he
            · exact hall₂ e he
          · exact hall₃ e he

/-! ## The outcome of a call -/

theorem SameOutcome.of_extends {r : Outcome Unit × ConditionalBufferedStream}
    (hret : r.1 = .returned ()) (hext : Extends s (Reference.removals hs s.contents) r.2) :
    SameOutcome hs s r where
  returned := hret
  removals := hext.removals
  contents := List.append_cancel_left (hext.bytes.trans (removals_bytes hs s.contents).symm)
  queue := hext.queue

theorem remaining_exhausted (hs : List ContractedHandler) (x : List Byte) :
    ∀ h ∈ hs, h.condition (remaining hs x) = 0 := by
  have hcut : (dispatcher hs).cut () (remaining hs x) = none :=
    Segmenter.cut_drain (dispatcher hs) () x
  exact firstMatch_eq_none (Option.map_eq_none_iff.mp hcut)

theorem sameOutcome_iff (hS : S.handlers = hs.map ContractedHandler.toHandler) (hv : s.stream.Valid)
    (hp : s.PostsSucceed S) :
    SameOutcome hs s (s.processDataSendSignals S s.contents) ↔
      ∀ y, LooksAt hs s.contents y → OneMatch hs y := by
  constructor
  · intro hsame
    obtain ⟨rs, hext⟩ := Dispatched.processDataSendSignals (S := S) hv s.contents
    have hrs : rs = removals hs s.contents :=
      List.append_cancel_left (hext.removals.symm.trans hsame.removals)
    subst hrs
    exact (oneMatch_of_returned hS _ _ _ _ hv rfl hp (Prod.ext hsame.returned rfl) hext
      List.prefix_rfl).2
  · intro hall
    obtain ⟨s', es, hret, hext, -, -⟩ := returned_of_oneMatch hS _ s hv rfl hp hall
    exact .of_extends (congrArg Prod.fst hret) (hret ▸ hext)

theorem refines_iff (hS : S.handlers = hs.map ContractedHandler.toHandler) (hv : s.stream.Valid)
    (hp : s.PostsSucceed S) :
    Refines hs s (s.processDataSendSignals S s.contents) ↔
      ∀ y, LooksAt hs s.contents y → OnlyLastMatches hs y := by
  constructor
  · intro href
    have hone := (sameOutcome_iff hS hv hp).mp href.toSameOutcome
    obtain ⟨s', es, hret, -, heval, hcurrent⟩ := returned_of_oneMatch hS _ s hv rfl hp hone
    refine hcurrent.mp fun e he => href.current e ?_
    rw [hret, heval, List.drop_left]
    exact he
  · intro hall
    have hone := fun y hy => (hall y hy).oneMatch
    obtain ⟨s', es, hret, hext, heval, hcurrent⟩ := returned_of_oneMatch hS _ s hv rfl hp hone
    have hsame : SameOutcome hs s (s.processDataSendSignals S s.contents) :=
      .of_extends (congrArg Prod.fst hret) (hret ▸ hext)
    refine ⟨hsame, ?_, ?_⟩
    · rw [hret, heval, List.drop_left]
      exact hcurrent.mpr hall
    · rw [hsame.contents]
      exact remaining_exhausted hs s.contents

end Reference

end SocketWrapper
