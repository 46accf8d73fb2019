import SocketWrapper.Interfaces.Lemmas.Selection

/-!
# The order of the interfaces, and which one is selected
-/

namespace SocketWrapper.Interfaces

open Descriptors Sorting

/-! ## The comparison -/

/-- The comparison is fit for `std::sort` exactly if no loopback interface is compared. -/
theorem interface_order_strictWeak_iff (S : Set NetworkInterface) :
    StrictWeakOn (comesBefore · ·) S ↔ ∀ i ∈ S, ¬ i.IsLoopback := by
  refine ⟨fun h i hi hloop => ?_, strictWeakOn_comesBefore⟩
  exact h.irrefl hi hloop.comesBefore_self

/-- Two addresses of one host. -/
def lo : NetworkInterface := ⟨"lo", "::1", "ffff:ffff:ffff:ffff:ffff:ffff:ffff:ffff", ""⟩

def eth0 : NetworkInterface := ⟨"eth0", "fe80::1", "ffff:ffff:ffff:ffff::", ""⟩

/-- The loopback interface comes before itself, and of the two each comes before the other. -/
theorem interface_order_cyclic :
    comesBefore lo lo = true ∧ comesBefore lo eth0 = true ∧ comesBefore eth0 lo = true ∧
      comesBefore eth0 eth0 = false ∧ ¬ StrictWeakOn (comesBefore · ·) Set.univ := by
  have hself : comesBefore lo lo = true := by decide
  exact ⟨hself, by decide, by decide, by decide, fun h => h.irrefl (Set.mem_univ lo) hself⟩

/-! ## The selection -/

/-- Of the interfaces that have been found, the one that is returned is as it should be, whatever `std::sort`
makes of them, exactly if there is no loopback interface among them and no prefix but the longest one reaches
into as many groups. A single loopback interface is among the exceptions only because `std::sort`, which is
promised a strict weak order and does not get one, may make anything of it. -/
theorem most_specific_selected_iff {version : IpVersion} {ifAddresses : List IfAddrs}
    {interfaces : List NetworkInterface}
    (hfound : getLocalNetworkInterfaces version ifAddresses = .ok interfaces) (hne : interfaces ≠ [])
    (hmasks : ∀ i ∈ interfaces, ∃ p, HasPrefix version i p) :
    SelectsMostSpecific version ifAddresses interfaces ↔
      (∀ i ∈ interfaces, ¬ i.IsLoopback) ∧ LongestStandsOut version interfaces := by
  constructor
  · exact fun h => ⟨h.not_loopback hfound, h.standsOut hfound hmasks⟩
  · rintro ⟨hloop, hstands⟩
    exact selectsMostSpecific_of_standsOut hfound hne hmasks hloop hstands

def inet (name : String) (address : BitVec 32) (p : ℕ) : IfAddrs :=
  ⟨name, some (.inet address), some (.inet (prefixMask 32 p)), none⟩

def inet6 (name : String) (address : BitVec 128) (p : ℕ) : IfAddrs :=
  ⟨name, some (.inet6 address), some (.inet6 (prefixMask 128 p)), none⟩

/-- 10.0.0.1/8 and 192.168.0.2/24. -/
theorem most_specific_selected_lan :
    SelectsMostSpecific .IPv4 [inet "eth0" 0x0a000001 8, inet "eth1" 0xc0a80002 24]
      [⟨"eth0", "10.0.0.1", "255.0.0.0", ""⟩, ⟨"eth1", "192.168.0.2", "255.255.255.0", ""⟩] := by
  have heth0 : HasPrefix .IPv4 ⟨"eth0", "10.0.0.1", "255.0.0.0", ""⟩ 8 := ⟨by decide, by decide⟩
  have heth1 : HasPrefix .IPv4 ⟨"eth1", "192.168.0.2", "255.255.255.0", ""⟩ 24 := ⟨by decide, by decide⟩
  refine (most_specific_selected_iff (by decide) (by simp) ?_).mpr ⟨?_, ?_⟩
  · simpa using ⟨⟨8, heth0⟩, ⟨24, heth1⟩⟩
  · decide
  · intro i hi j hj p q hp hq _ hgroups
    simp only [List.mem_cons, List.not_mem_nil, or_false] at hi hj
    rcases hi with rfl | rfl <;> rcases hj with rfl | rfl
    · exact hp.unique hq
    · rw [hp.unique heth0, hq.unique heth1] at hgroups
      exact absurd hgroups (by decide)
    · rw [hp.unique heth1, hq.unique heth0] at hgroups
      exact absurd hgroups (by decide)
    · exact hp.unique hq

/-- fd00::1/60 and fd00::2/64, both of which reach into four groups. -/
def tied : List IfAddrs :=
  [inet6 "eth0" 0xfd000000000000000000000000000001 60, inet6 "eth1" 0xfd000000000000000000000000000002 64]

def tiedInterfaces : List NetworkInterface :=
  [⟨"eth0", "fd00::1", "ffff:ffff:ffff:fff0::", ""⟩, ⟨"eth1", "fd00::2", "ffff:ffff:ffff:ffff::", ""⟩]

/-- fe80::1/64 and ::1/128. -/
def looped : List IfAddrs := [inet6 "eth0" 0xfe800000000000000000000000000001 64, inet6 "lo" 1 128]

/-- The sort may leave two interfaces as they are, and the shorter prefix is returned. Where a loopback
interface is among them, it may be the one that is returned. -/
theorem most_specific_missed :
    getInterfaceWithMostSpecificNetmask id .IPv6 tied = .ok tiedInterfaces.head? ∧
      MayYield (comesBefore · ·) tiedInterfaces tiedInterfaces ∧
      ¬ SelectsMostSpecific .IPv6 tied tiedInterfaces ∧
      getInterfaceWithMostSpecificNetmask List.reverse .IPv6 looped = .ok (some lo) ∧
      MayYield (comesBefore · ·) [eth0, lo] [lo, eth0] ∧
      ¬ SelectsMostSpecific .IPv6 looped [eth0, lo] := by
  have htied : getInterfaceWithMostSpecificNetmask id .IPv6 tied = .ok tiedInterfaces.head? := by decide
  have hyields : MayYield (comesBefore · ·) tiedInterfaces tiedInterfaces :=
    fun _ => ⟨.refl _, by decide⟩
  have hlooped : getInterfaceWithMostSpecificNetmask List.reverse .IPv6 looped = .ok (some lo) := by decide
  have hundefined : MayYield (comesBefore · ·) [eth0, lo] [lo, eth0] :=
    fun hr => absurd (by decide) (hr.irrefl (a := lo) (by simp))
  refine ⟨htied, hyields, fun h => ?_, hlooped, hundefined, fun h => ?_⟩
  · obtain ⟨front, hfront, hspecific⟩ := h id hyields
    cases htied.symm.trans hfront
    have hle : 64 ≤ 60 := hspecific.longest ⟨"eth1", "fd00::2", "ffff:ffff:ffff:ffff::", ""⟩ (by decide)
      (by decide) 64 60 ⟨by decide, by decide⟩ ⟨by decide, by decide⟩
    exact absurd hle (by decide)
  · obtain ⟨front, hfront, hspecific⟩ := h List.reverse hundefined
    cases hlooped.symm.trans hfront
    exact hspecific.notLoopback ⟨eth0, by decide, by decide⟩ (by decide)

end SocketWrapper.Interfaces
