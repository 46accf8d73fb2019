import SocketWrapper.Endpoints.Lemmas.Texts

/-!
# The texts of the interfaces lead back to them
-/

namespace SocketWrapper.Endpoints

open Descriptors Interfaces

/-- The address of every interface that is found is written so that all functions that take the text of an
address come to that address, for each of the addresses that there are. -/
theorem interface_text_denotes {version : IpVersion} {ifAddresses : List IfAddrs}
    {interfaces : List NetworkInterface} (hfound : getLocalNetworkInterfaces version ifAddresses = .ok interfaces) :
    ∀ i ∈ interfaces, ∃ it ∈ ifAddresses, ∃ a, it.ifaName = i.name ∧ it.ifaAddr = some a ∧
      a.saFamily = family version ∧ Denotes version i.ipAddress (meant version a) := by
  intro i hi
  rcases mem_findInterfaces hfound hi with hnone | ⟨it, hit, ⟨a, ha, hfamily⟩, hmade⟩
  · cases hnone
  · obtain ⟨hname, htext⟩ := foundInterface_ok hmade
    rw [ha] at htext
    exact ⟨it, hit, a, hname.symm, ha, hfamily, denotes_text hfamily htext⟩

/-- Two interfaces, of which one has an address that ends in an IPv4 address. -/
def hostAddresses : List IfAddrs :=
  [⟨"lo", some (.inet 0x7f000001), none, none⟩, ⟨"tun0", some (.inet6 0xffff0a000001), none, none⟩,
    ⟨"eth0", some (.inet6 0xfe800000000000000001000000000002), none, none⟩]

theorem interface_text_denotes_host :
    getLocalNetworkInterfaces .IPv6 hostAddresses =
        .ok [⟨"tun0", "::ffff:10.0.0.1", "", ""⟩, ⟨"eth0", "fe80::1:0:0:2", "", ""⟩] ∧
      ∃ it ∈ hostAddresses, ∃ a, it.ifaName = "eth0" ∧ it.ifaAddr = some a ∧ a.saFamily = family .IPv6 ∧
        Denotes .IPv6 "fe80::1:0:0:2" (meant .IPv6 a) := by
  have hfound : getLocalNetworkInterfaces .IPv6 hostAddresses =
      .ok [⟨"tun0", "::ffff:10.0.0.1", "", ""⟩, ⟨"eth0", "fe80::1:0:0:2", "", ""⟩] := by decide +kernel
  exact ⟨hfound, interface_text_denotes hfound ⟨"eth0", "fe80::1:0:0:2", "", ""⟩ (by simp)⟩

end SocketWrapper.Endpoints
