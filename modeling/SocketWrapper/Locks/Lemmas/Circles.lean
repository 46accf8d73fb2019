import SocketWrapper.Locks.Lemmas.Waiting

/-!
# Calls that are not orderly

Threads that make such calls and no other can get into a deadlock: each of them locks as many of its mutexes
as it needs for that, and nobody is in anybody's way before the end.
-/

namespace SocketWrapper

open Transition LockingCall

namespace Locks

variable {m m' : Locks} {calls : List LockingCall} {t n : Nat} {call : LockingCall} {mutex : Mutex}

/-! ## Threads that lock some of their mutexes -/

theorem step_lock {l : Locking} (hat : m.calls.At t n l) (hnext : l.next? = some mutex)
    (hfree : m.Free mutex) :
    m.step (.lock t) = some ⟨m.calls.goOn t n { l with held := l.held + 1 }⟩ := by
  simp [step, Calls.call?_eq_some.mpr hat, hnext, hfree]

theorem step_call (hidle : m.calls.Idle t) (call : LockingCall) :
    m.step (.call t call) = some ⟨m.calls.enter t (.start call)⟩ := by
  simp only [step]
  rw [show m.calls.threads[t]? = some none from hidle]

/-- A call locks the first `held` of its mutexes if they are free. -/
theorem reach_locks (hat : m.calls.At t n (.start call)) {held : Nat} (hle : held ≤ call.mutexes.length)
    (hnodup : (call.mutexes.take held).Nodup)
    (hothers : ∀ {t' n' l'}, t' ≠ t → m.calls.At t' n' l' →
      ∀ x ∈ call.mutexes.take held, x ∉ l'.holding) :
    Reach step (fun _ a => a.Of calls) m ⟨m.calls.goOn t n ⟨call, held, false⟩⟩ := by
  induction held with
  | zero =>
      have hsame : m.calls.goOn t n ⟨call, 0, false⟩ = m.calls := hat.goOn_self
      rw [hsame]
      exact .refl
  | succ held ih =>
      have hlt : held < call.mutexes.length := hle
      have htake : call.mutexes.take (held + 1) = call.mutexes.take held ++ [call.mutexes[held]] := by
        rw [List.take_add_one, List.getElem?_eq_getElem hlt]
        rfl
      rw [htake] at hnodup hothers
      have hbefore := ih (Nat.le_of_lt hlt) (List.Nodup.of_append_left hnodup)
        fun hne hat' x hx => hothers hne hat' x (List.mem_append_left _ hx)
      have hthere := hat.goOn_same n ⟨call, held, false⟩
      have hnext : (⟨call, held, false⟩ : Locking).next? = some call.mutexes[held] := by
        simp [Locking.next?, hlt]
      have hfree : Free ⟨m.calls.goOn t n ⟨call, held, false⟩⟩ call.mutexes[held] := by
        intro l hl hmem
        obtain ⟨t', n', hat'⟩ := Calls.mem_all.mp hl
        rcases Calls.of_goOn hat' with ⟨-, -, rfl⟩ | ⟨hne, hold⟩
        · exact (List.nodup_append.mp hnodup).2.2 _ hmem _ (List.mem_singleton.mpr rfl) rfl
        · exact hothers hne hold _ (List.mem_append_right _ (List.mem_singleton.mpr rfl)) hmem
      have hstep := step_lock (m := ⟨m.calls.goOn t n ⟨call, held, false⟩⟩) hthere hnext hfree
      rw [Calls.goOn_goOn] at hstep
      exact hbefore.tail (a := .lock t) trivial hstep

/-- What a thread shall lock: the first `held` mutexes of its call. -/
structure Share where
  thread : Nat
  call : LockingCall
  held : Nat

namespace Share

abbrev locking (s : Share) : Locking := ⟨s.call, s.held, false⟩

end Share

/-- Threads that shall hold different mutexes can all get there. -/
theorem reach_shares {shares : List Share}
    (hcalls : ∀ s ∈ shares, calls[s.thread]? = some s.call ∧ s.held ≤ s.call.mutexes.length)
    (hthreads : (shares.map Share.thread).Nodup)
    (hmutexes : (shares.flatMap fun s => s.locking.holding).Nodup) :
    ∃ m, Reach step (fun _ a => a.Of calls) (start calls.length) m ∧
      m.calls.threads.length = calls.length ∧
      (∀ s ∈ shares, ∃ n, m.calls.At s.thread n s.locking) ∧
      ∀ t n l, m.calls.At t n l → ∃ s ∈ shares, t = s.thread ∧ l = s.locking := by
  induction shares with
  | nil =>
      exact ⟨start calls.length, .refl, by simp [start, Calls.start], nofun,
        fun _ _ _ hat => absurd hat Calls.not_at_start⟩
  | cons s shares ih =>
      rw [List.map_cons, List.nodup_cons] at hthreads
      rw [List.flatMap_cons, List.nodup_append] at hmutexes
      obtain ⟨m, hreach, hlength, hat, honly⟩ := ih
        (fun s' hs' => hcalls s' (List.mem_cons_of_mem _ hs')) hthreads.2 hmutexes.2.1
      obtain ⟨hcall, hle⟩ := hcalls s (List.mem_cons_self ..)
      have hne {s' : Share} (hs' : s' ∈ shares) : s'.thread ≠ s.thread :=
        fun heq => hthreads.1 (heq ▸ List.mem_map_of_mem hs')
      have hidle : m.calls.Idle s.thread := by
        refine Calls.idle_of (hlength ▸ (List.getElem?_eq_some_iff.mp hcall).1) fun n l hat' => ?_
        obtain ⟨s', hs', heq, -⟩ := honly _ n l hat'
        exact hne hs' heq.symm
      have hlocks : Reach step (fun _ a => a.Of calls) ⟨m.calls.enter s.thread (.start s.call)⟩
          ⟨(m.calls.enter s.thread (.start s.call)).goOn s.thread m.calls.begun s.locking⟩ := by
        refine reach_locks (hidle.enter_at _) hle hmutexes.1 fun hother hat' x hx hmem => ?_
        rcases Calls.of_enter hat' with ⟨heq, -, -⟩ | ⟨-, hold⟩
        · exact hother heq
        · obtain ⟨s', hs', -, rfl⟩ := honly _ _ _ hold
          exact hmutexes.2.2 x hx x (List.mem_flatMap.mpr ⟨s', hs', hmem⟩) rfl
      refine ⟨_, (hreach.tail (a := Action.call s.thread s.call) hcall (step_call hidle _)).trans hlocks,
        by simp [Calls.goOn, Calls.enter, hlength], fun s' hs' => ?_, fun t n l hat' => ?_⟩
      · rcases List.mem_cons.mp hs' with rfl | hold
        · exact ⟨_, (hidle.enter_at _).goOn_same _ _⟩
        · obtain ⟨n, hthere⟩ := hat s' hold
          exact ⟨n, (hthere.enter_other (hne hold)).goOn_other (hne hold)⟩
      · rcases Calls.of_goOn hat' with ⟨rfl, -, rfl⟩ | ⟨hother, hentered⟩
        · exact ⟨s, List.mem_cons_self .., rfl, rfl⟩
        · have hold := ((Calls.of_enter hentered).resolve_left fun h => hother h.1).2
          obtain ⟨s', hs', heq⟩ := honly t n l hold
          exact ⟨s', List.mem_cons_of_mem _ hs', heq⟩

/-! ## Deadlocks -/

/-- Each share is followed by a mutex that another one has. -/
theorem deadlock_of_shares (shares : List Share)
    (hcalls : ∀ s ∈ shares, calls[s.thread]? = some s.call ∧ s.held ≤ s.call.mutexes.length)
    (hthreads : (shares.map Share.thread).Nodup)
    (hmutexes : (shares.flatMap fun s => s.locking.holding).Nodup) (hne : shares ≠ [])
    (hnext : ∀ s ∈ shares, ∃ s' ∈ shares, ∃ mutex, s.locking.next? = some mutex ∧
      mutex ∈ s'.locking.holding) :
    ∃ m, Reach step (fun _ a => a.Of calls) (start calls.length) m ∧ m.Deadlocked := by
  obtain ⟨m, hreach, -, hat, -⟩ := reach_shares hcalls hthreads hmutexes
  refine ⟨m, hreach, {t | ∃ s ∈ shares, t = s.thread}, ?_, ?_⟩
  · obtain ⟨s, hs⟩ := List.exists_mem_of_ne_nil _ hne
    exact ⟨s.thread, s, hs, rfl⟩
  · rintro _ ⟨s, hs, rfl⟩
    obtain ⟨s', hs', mutex, hwaits, hmem⟩ := hnext s hs
    obtain ⟨n, hthere⟩ := hat s hs
    obtain ⟨n', hthere'⟩ := hat s' hs'
    exact ⟨s'.thread, ⟨s', hs', rfl⟩, n, _, n', _, mutex, hthere, hwaits, hthere', hmem⟩

/-- A stream is constructed from one that is the target of an assignment, or the source. -/
theorem deadlock_of_construct {src target src' : Nat} (hconstruct : .construct src ∈ calls)
    (hassign : .assign target src' ∈ calls) (hsame : src = target ∨ src = src') :
    ∃ m, Reach step (fun _ a => a.Of calls) (start calls.length) m ∧ m.Deadlocked := by
  obtain ⟨i, hi⟩ := List.mem_iff_getElem?.mp hconstruct
  obtain ⟨j, hj⟩ := List.mem_iff_getElem?.mp hassign
  have hne : i ≠ j := by
    rintro rfl
    cases hi.symm.trans hj
  by_cases htarget : src = target
  · -- the one holds the read mutex of the stream, the other its write mutex
    subst htarget
    refine deadlock_of_shares [⟨i, .construct src, 1⟩, ⟨j, .assign src src', 1⟩]
      (by simp [hi, hj, mutexes]) (by simp [hne]) (by simp [Locking.holding, mutexes])
      (List.cons_ne_nil _ _) ?_
    simp [Locking.next?, Locking.holding, mutexes]
  · -- the assignment has got to the write mutex of its source
    obtain rfl := hsame.resolve_left htarget
    refine deadlock_of_shares [⟨i, .construct src, 1⟩, ⟨j, .assign target src, 3⟩]
      (by simp [hi, hj, mutexes]) (by simp [hne])
      (by simp [Locking.holding, mutexes, htarget, Ne.symm htarget]) (List.cons_ne_nil _ _) ?_
    simp [Locking.next?, Locking.holding, mutexes]

/-- Each stream of a set is assigned from one of the set. -/
theorem deadlock_of_stuck {streams : Set Nat} (h : WaitFor.Stuck (AssignedFrom calls) streams) :
    ∃ m, Reach step (fun _ a => a.Of calls) (start calls.length) m ∧ m.Deadlocked := by
  obtain ⟨⟨stream, hstream⟩, hassigned⟩ := h
  have hfinite : streams.Finite :=
    (finite_targets calls).subset fun target htarget => (hassigned target htarget).imp fun _ => And.right
  choose! src hsrc hcall using hassigned
  choose! thread hthread using fun target htarget => List.mem_iff_getElem?.mp (hcall target htarget)
  have hmem (target : Nat) : target ∈ hfinite.toFinset.toList ↔ target ∈ streams := by simp
  have hnodup := hfinite.toFinset.nodup_toList
  generalize hfinite.toFinset.toList = targets at hmem hnodup
  -- one assignment for each stream of the set, which locks both mutexes of its target
  refine deadlock_of_shares (targets.map fun target =>
    ⟨thread target, .assign target (src target), 2⟩) ?_ ?_ ?_ ?_ ?_
  · intro s hs
    obtain ⟨target, htarget, rfl⟩ := List.mem_map.mp hs
    exact ⟨hthread target ((hmem target).mp htarget), by simp [mutexes]⟩
  · rw [List.map_map]
    refine hnodup.map_on fun target htarget target' htarget' heq => ?_
    have hcalls := hthread target ((hmem target).mp htarget)
    have hcalls' := hthread target' ((hmem target').mp htarget')
    simp only [Function.comp_apply] at heq
    rw [heq, hcalls'] at hcalls
    exact (LockingCall.assign.inj (Option.some.inj hcalls)).1.symm
  · rw [List.flatMap_map, List.nodup_flatMap]
    refine ⟨fun target _ => by simp [Locking.holding, mutexes], hnodup.imp fun hne => ?_⟩
    simp [Function.onFun, Locking.holding, mutexes, Ne.symm hne]
  · simpa using List.ne_nil_of_mem ((hmem stream).mpr hstream)
  · intro s hs
    obtain ⟨target, htarget, rfl⟩ := List.mem_map.mp hs
    have hnext := (hmem _).mpr (hsrc target ((hmem target).mp htarget))
    refine ⟨_, List.mem_map_of_mem hnext, .writeMtx (src target), ?_, ?_⟩
    · simp [Locking.next?, mutexes]
    · simp [Locking.holding, mutexes]

/-- Threads that make calls that are not orderly, and no others, can get into a deadlock. -/
theorem deadlock_of_not_orderly (h : ¬ Orderly calls) :
    ∃ m, Reach step (fun _ a => a.Of calls) (start calls.length) m ∧ m.Deadlocked := by
  by_cases hacyclic : WaitFor.Acyclic (AssignedFrom calls)
  · by_contra hnone
    refine h ⟨hacyclic, fun hconstruct hassign => ?_⟩
    by_contra hsame
    rw [not_and_or, not_not, not_not] at hsame
    exact hnone (deadlock_of_construct hconstruct hassign hsame)
  · simp only [WaitFor.Acyclic, not_forall, not_not] at hacyclic
    obtain ⟨stream, hcycle⟩ := hacyclic
    exact deadlock_of_stuck (WaitFor.stuck_between hcycle)

end Locks

end SocketWrapper
