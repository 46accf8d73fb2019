import SocketWrapper.Interfaces.Lemmas.Masks

/-!
# The comparison and what is selected by it
-/

namespace SocketWrapper.Interfaces

open Descriptors Sorting

variable {version : IpVersion} {interfaces : List NetworkInterface} {S : Set NetworkInterface}
  {ifAddresses : List IfAddrs} {sort : List NetworkInterface → List NetworkInterface}
  {a b : NetworkInterface}

/-- The replacement has no influence on the lengths. -/
theorem comesBefore_iff : comesBefore a b = true ↔ b.IsLoopback ∨ b.netmask.length < a.netmask.length := by
  simp only [comesBefore, Pattern.length_replaceAll (p := invalidChars) (rfl : "x".length = 1),
    NetworkInterface.IsLoopback, Bool.or_eq_true, beq_iff_eq, decide_eq_true_eq]
  tauto

theorem NetworkInterface.IsLoopback.comesBefore_self (h : a.IsLoopback) : comesBefore a a = true :=
  comesBefore_iff.mpr (.inl h)

theorem comesBefore_iff_of_not_loopback (hb : ¬ b.IsLoopback) :
    comesBefore a b = true ↔ b.netmask.length < a.netmask.length := by
  simp [comesBefore_iff, hb]

theorem strictWeakOn_comesBefore (h : ∀ i ∈ S, ¬ i.IsLoopback) : StrictWeakOn (comesBefore · ·) S :=
  .of_measure (·.netmask.length) fun _ _ _ hb => comesBefore_iff_of_not_loopback (h _ hb)

theorem exists_longest (hne : interfaces ≠ []) (hmasks : ∀ i ∈ interfaces, ∃ p, HasPrefix version i p) :
    ∃ j ∈ interfaces, ∃ q, HasPrefix version j q ∧ ∀ i ∈ interfaces, ∀ p, HasPrefix version i p → p ≤ q := by
  let prefixes : Set ℕ := {p | ∃ i ∈ interfaces, HasPrefix version i p}
  have hbounded : BddAbove prefixes := ⟨bits version, fun p ⟨_, _, hp⟩ => hp.le⟩
  obtain ⟨i, hi⟩ := List.exists_mem_of_ne_nil interfaces hne
  obtain ⟨p, hp⟩ := hmasks i hi
  obtain ⟨j, hj, hq⟩ : sSup prefixes ∈ prefixes := Nat.sSup_mem ⟨p, i, hi, hp⟩ hbounded
  exact ⟨j, hj, _, hq, fun i hi p hp => le_csSup hbounded ⟨i, hi, hp⟩⟩

/-- The front of the sorted interfaces reaches into the most groups. -/
theorem mostSpecific_of_front (hne : interfaces ≠ []) (hmasks : ∀ i ∈ interfaces, ∃ p, HasPrefix version i p)
    (hloop : ∀ i ∈ interfaces, ¬ i.IsLoopback) (hstands : LongestStandsOut version interfaces)
    (ha : a ∈ interfaces) (hfirst : ∀ b ∈ interfaces, ¬ comesBefore b a = true) :
    MostSpecific version interfaces a where
  notLoopback _ := hloop a ha
  longest i hi _ p q hp hq := by
    obtain ⟨j, hj, r, hr, hlongest⟩ := exists_longest hne hmasks
    have hgroups : groups version r ≤ groups version q := by
      have hjfirst := hfirst j hj
      rw [comesBefore_iff_of_not_loopback (hloop a ha), hq.length_lt_iff hr] at hjfirst
      exact Nat.not_lt.mp hjfirst
    have hle : q ≤ r := hlongest a ha q hq
    have heq : q = r := hstands a ha j hj q r hq hr hlongest ((groups_mono hle).antisymm hgroups)
    exact heq ▸ hlongest i hi p hp

theorem getInterface_of_found (hfound : getLocalNetworkInterfaces version ifAddresses = .ok interfaces) :
    getInterfaceWithMostSpecificNetmask sort version ifAddresses = .ok (sort interfaces).head? := by
  simp [getInterfaceWithMostSpecificNetmask, hfound, Bind.bind, Except.bind, pure, Except.pure]

theorem selectsMostSpecific_of_standsOut
    (hfound : getLocalNetworkInterfaces version ifAddresses = .ok interfaces) (hne : interfaces ≠ [])
    (hmasks : ∀ i ∈ interfaces, ∃ p, HasPrefix version i p) (hloop : ∀ i ∈ interfaces, ¬ i.IsLoopback)
    (hstands : LongestStandsOut version interfaces) :
    SelectsMostSpecific version ifAddresses interfaces := by
  intro sort hsort
  obtain ⟨front, hmem, hhead, hfirst⟩ := hsort.front (strictWeakOn_comesBefore hloop) hne
  refine ⟨front, ?_, mostSpecific_of_front hne hmasks hloop hstands hmem hfirst⟩
  rw [getInterface_of_found hfound, hhead]

/-- Nothing is promised about the order of interfaces of which one comes before itself. -/
theorem SelectsMostSpecific.not_loopback
    (hfound : getLocalNetworkInterfaces version ifAddresses = .ok interfaces)
    (h : SelectsMostSpecific version ifAddresses interfaces) : ∀ i ∈ interfaces, ¬ i.IsLoopback := by
  intro i hi hloop
  have hundefined : ¬ StrictWeakOn (comesBefore · ·) {a | a ∈ interfaces} :=
    fun hr => hr.irrefl hi hloop.comesBefore_self
  obtain ⟨front, hfront, -⟩ := h (fun _ => []) fun hr => absurd hr hundefined
  rw [getInterface_of_found hfound] at hfront
  cases hfront

/-- An interface that reaches into as many groups as the longest prefix may end up at the front. -/
theorem SelectsMostSpecific.standsOut
    (hfound : getLocalNetworkInterfaces version ifAddresses = .ok interfaces)
    (hmasks : ∀ i ∈ interfaces, ∃ p, HasPrefix version i p)
    (h : SelectsMostSpecific version ifAddresses interfaces) : LongestStandsOut version interfaces := by
  intro i hi j hj p q hp hq hlongest hgroups
  have hloop := h.not_loopback hfound
  have hfirst : ∀ k ∈ interfaces, ¬ comesBefore k i = true := by
    intro k hk
    obtain ⟨r, hr⟩ := hmasks k hk
    rw [comesBefore_iff_of_not_loopback (hloop i hi), hp.length_lt_iff hr, hgroups]
    exact Nat.not_lt.mpr (groups_mono (hlongest k hk r hr))
  obtain ⟨sorted, hsorted, hhead⟩ := exists_mayYield_front (r := (comesBefore · ·)) hi hfirst
  obtain ⟨front, hfront, hspecific⟩ := h (fun _ => sorted) hsorted
  rw [getInterface_of_found hfound, hhead] at hfront
  cases hfront
  exact (hlongest i hi p hp).antisymm (hspecific.longest j hj (hloop j hj) q p hq hp)

end SocketWrapper.Interfaces
