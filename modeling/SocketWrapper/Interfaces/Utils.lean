import SocketWrapper.Descriptors.Objects
import SocketWrapper.Interfaces.Addresses
import SocketWrapper.Lib.Pattern
import SocketWrapper.Lib.Sorting

/-!
# The network interfaces of the host

`Utils.cpp`: the interfaces that have an address of a version, and the one that is taken for the most
specific.
-/

namespace SocketWrapper.Interfaces

open Descriptors

structure NetworkInterface where
  name : String
  ipAddress : String
  netmask : String
  broadcastAddress : String
  deriving DecidableEq, Repr

/-- An element of the list that `getifaddrs` makes. -/
structure IfAddrs where
  ifaName : String
  ifaAddr : Option SockAddr
  ifaNetmask : Option SockAddr
  ifaBroadaddr : Option SockAddr
  deriving DecidableEq, Repr

def family : IpVersion → Nat
  | .IPv4 => AF_INET
  | .IPv6 => AF_INET6

def foundInterface (it : IfAddrs) : Except Exception NetworkInterface := do
  let ipAddress ← getIpAddressOf it.ifaAddr
  let netmask ← getIpAddressOf it.ifaNetmask
  let broadcastAddress ← getIpAddressOf it.ifaBroadaddr
  return ⟨it.ifaName, ipAddress, netmask, broadcastAddress⟩

/-- The loop, with the `found_addresses` so far. -/
def findInterfaces (version : IpVersion) (foundAddresses : List NetworkInterface) :
    List IfAddrs → Except Exception (List NetworkInterface)
  | [] => .ok foundAddresses
  | it :: next =>
      if it.ifaAddr.any fun a => a.saFamily == family version then do
        let found ← foundInterface it
        findInterfaces version (foundAddresses ++ [found]) next
      else findInterfaces version foundAddresses next

def getLocalNetworkInterfaces (version : IpVersion) (ifAddresses : List IfAddrs) :
    Except Exception (List NetworkInterface) :=
  findInterfaces version [] ifAddresses

/-! ## `getInterfaceWithMostSpecificNetmask` -/

/-- `:|.|0`, in which the dot is not escaped. -/
def invalidChars : Pattern := .alt (.alt (.char ':') .any) (.char '0')

/-- The comparison that is passed to `std::sort`. -/
def comesBefore (a b : NetworkInterface) : Bool :=
  let aNetmask := invalidChars.replaceAll a.netmask "x"
  let bNetmask := invalidChars.replaceAll b.netmask "x"
  b.ipAddress == "::1" || b.ipAddress == "127.0.0.1" || decide (aNetmask.length > bNetmask.length)

/-- `sort` is `std::sort` with the comparison; there is no front if it leaves nothing. -/
def getInterfaceWithMostSpecificNetmask (sort : List NetworkInterface → List NetworkInterface)
    (requiredIpVersion : IpVersion) (ifAddresses : List IfAddrs) :
    Except Exception (Option NetworkInterface) := do
  let interfaces ← getLocalNetworkInterfaces requiredIpVersion ifAddresses
  return (sort interfaces).head?

/-! ## What the selection is for -/

def NetworkInterface.IsLoopback (i : NetworkInterface) : Prop :=
  i.ipAddress = "127.0.0.1" ∨ i.ipAddress = "::1"
  deriving Decidable

def bits : IpVersion → Nat
  | .IPv4 => 32
  | .IPv6 => 128

/-- The mask whose first `p` bits are set. -/
def prefixMask (n p : Nat) : BitVec n := BitVec.allOnes n <<< (n - p)

def maskText : IpVersion → Nat → String
  | .IPv4, p => (inetNtop4 (prefixMask 32 p) INET_ADDRSTRLEN).getD ""
  | .IPv6, p => (inetNtop6 (prefixMask 128 p) INET6_ADDRSTRLEN).getD ""

/-- The netmask is the text of a contiguous mask with a prefix of `p` bits. -/
structure HasPrefix (version : IpVersion) (i : NetworkInterface) (p : Nat) : Prop where
  le : p ≤ bits version
  netmask : i.netmask = maskText version p

/-- `front` is no loopback interface if there is another one, and no interface that is not a loopback one has
a longer prefix. -/
structure MostSpecific (version : IpVersion) (interfaces : List NetworkInterface)
    (front : NetworkInterface) : Prop where
  notLoopback : (∃ i ∈ interfaces, ¬ i.IsLoopback) → ¬ front.IsLoopback
  longest : ∀ i ∈ interfaces, ¬ i.IsLoopback →
    ∀ p q, HasPrefix version i p → HasPrefix version front q → p ≤ q

/-- Whatever `std::sort` may make of the interfaces, the front of it is returned, and is as it should be. -/
def SelectsMostSpecific (version : IpVersion) (ifAddresses : List IfAddrs)
    (interfaces : List NetworkInterface) : Prop :=
  ∀ sort, Sorting.MayYield (comesBefore · ·) interfaces (sort interfaces) →
    ∃ front, getInterfaceWithMostSpecificNetmask sort version ifAddresses = .ok (some front) ∧
      MostSpecific version interfaces front

/-- How many octets of an IPv4 mask, or groups of four digits of an IPv6 mask, a prefix reaches into. -/
def groups : IpVersion → Nat → Nat
  | .IPv4, p => (p + 7) / 8
  | .IPv6, p => (p + 15) / 16

/-- Of the prefixes that reach into as many groups as the longest one, there is no other than that one. -/
def LongestStandsOut (version : IpVersion) (interfaces : List NetworkInterface) : Prop :=
  ∀ i ∈ interfaces, ∀ j ∈ interfaces, ∀ p q, HasPrefix version i p → HasPrefix version j q →
    (∀ k ∈ interfaces, ∀ r, HasPrefix version k r → r ≤ q) → groups version p = groups version q → p = q

end SocketWrapper.Interfaces
