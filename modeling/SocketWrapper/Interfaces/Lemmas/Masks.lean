import SocketWrapper.Interfaces.Lemmas.Texts
import SocketWrapper.Interfaces.Utils

/-!
# The lengths of the texts of masks

The length tells how many groups a prefix reaches into, and no more. The text as a whole tells the prefix.
-/

namespace SocketWrapper.Interfaces

open Descriptors

variable {version : IpVersion} {i j : NetworkInterface} {p q : Nat}

/-- Each octet that a prefix reaches into has three digits, and the others have one. -/
theorem length_dotted : ∀ p ≤ 32, (dotted (prefixMask 32 p)).length = 7 + 2 * groups .IPv4 p := by
  decide +kernel

/-- Four digits and a colon for each group, and a second colon at the end. In place of the last group there
is a zero, or nothing. -/
theorem length_coloned : ∀ p ≤ 128, (coloned (prefixMask 128 p)).length =
    if groups .IPv6 p = 0 then 2 else if groups .IPv6 p = 8 then 39 else 5 * groups .IPv6 p + 1 := by
  decide +kernel

theorem length_maskText_IPv4 (h : p ≤ 32) : (maskText .IPv4 p).length = 7 + 2 * groups .IPv4 p := by
  simp [maskText, inetNtop4_eq, length_dotted p h]

theorem length_maskText_IPv6 (h : p ≤ 128) : (maskText .IPv6 p).length =
    if groups .IPv6 p = 0 then 2 else if groups .IPv6 p = 8 then 39 else 5 * groups .IPv6 p + 1 := by
  simp [maskText, inetNtop6_eq, length_coloned p h]

theorem groups_mono (h : p ≤ q) : groups version p ≤ groups version q := by
  cases version with
  | IPv4 => exact Nat.div_le_div_right (Nat.add_le_add_right h 7)
  | IPv6 => exact Nat.div_le_div_right (Nat.add_le_add_right h 15)

theorem HasPrefix.length_lt_iff (hi : HasPrefix version i p) (hj : HasPrefix version j q) :
    i.netmask.length < j.netmask.length ↔ groups version p < groups version q := by
  rw [hi.netmask, hj.netmask]
  cases version with
  | IPv4 =>
      rw [length_maskText_IPv4 hi.le, length_maskText_IPv4 hj.le]
      omega
  | IPv6 =>
      have hp : groups .IPv6 p ≤ 8 := groups_mono hi.le
      have hq : groups .IPv6 q ≤ 8 := groups_mono hj.le
      rw [length_maskText_IPv6 hi.le, length_maskText_IPv6 hj.le]
      grind

/-! ## The text tells the prefix -/

theorem dotted_injective :
    ∀ p ≤ 32, ∀ q < p, dotted (prefixMask 32 p) ≠ dotted (prefixMask 32 q) := by
  decide +kernel

/-- How many bits are set in the digits that occur in the text of a mask. -/
def digitBits : Char → ℕ
  | 'f' => 4
  | 'e' => 3
  | 'c' => 2
  | '8' => 1
  | _ => 0

theorem foldl_digitBits_coloned :
    ∀ p ≤ 128, (coloned (prefixMask 128 p)).foldl (fun n c => n + digitBits c) 0 = p := by
  decide +kernel

theorem HasPrefix.unique (hp : HasPrefix version i p) (hq : HasPrefix version i q) : p = q := by
  have htext : maskText version p = maskText version q := hp.netmask.symm.trans hq.netmask
  cases version with
  | IPv4 =>
      simp only [maskText, inetNtop4_eq, Option.getD_some, String.ofList_inj] at htext
      rcases lt_trichotomy p q with hlt | heq | hgt
      · exact absurd htext.symm (dotted_injective q hq.le p hlt)
      · exact heq
      · exact absurd htext (dotted_injective p hp.le q hgt)
  | IPv6 =>
      simp only [maskText, inetNtop6_eq, Option.getD_some, String.ofList_inj] at htext
      rw [← foldl_digitBits_coloned p hp.le, htext, foldl_digitBits_coloned q hq.le]

end SocketWrapper.Interfaces
