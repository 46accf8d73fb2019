import SocketWrapper.Base.Exceptions

/-!
# The texts of addresses

`getIpAddressOf` and its helpers, with the `inet_ntop` that they call. Addresses are numbers, with the octet
that is sent first on top.
-/

namespace SocketWrapper.Interfaces

def AF_INET : Nat := 2

def AF_INET6 : Nat := 10

def INET_ADDRSTRLEN : Nat := 16

def INET6_ADDRSTRLEN : Nat := 46

/-! ## `inet_ntop` -/

/-- A number cut into `n` pieces of `width` bits each. -/
def pieces (width n : Nat) {w : Nat} (a : BitVec w) : List Nat :=
  (List.range n).map fun i => (a >>> (width * (n - 1 - i))).toNat % 2 ^ width

def octets (a : BitVec 32) : List Nat := pieces 8 4 a

def words (a : BitVec 128) : List Nat := pieces 16 8 a

def dotted (a : BitVec 32) : List Char := ['.'].intercalate ((octets a).map (Nat.toDigits 10))

/-- `none` if the text and its end do not fit into `size` characters. -/
def inetNtop4 (a : BitVec 32) (size : Nat) : Option String :=
  if size ≤ (dotted a).length then none else some (.ofList (dotted a))

structure ZeroRun where
  base : Nat
  len : Nat
  deriving DecidableEq, Repr

def longer (best cur : Option ZeroRun) : Option ZeroRun :=
  match best, cur with
  | some best, some cur => if best.len < cur.len then some cur else some best
  | none, cur => cur
  | best, none => best

/-- The first one of the longest, from the word number `i` on. -/
def longestRun (best cur : Option ZeroRun) (i : Nat) : List Nat → Option ZeroRun
  | [] => longer best cur
  | 0 :: ws => longestRun best (some (cur.elim ⟨i, 1⟩ fun run => ⟨run.base, run.len + 1⟩)) (i + 1) ws
  | (_ + 1) :: ws => longestRun (longer best cur) none (i + 1) ws

/-- A single word is not shortened. -/
def bestRun (ws : List Nat) : Option ZeroRun := (longestRun none none 0 ws).filter fun run => 2 ≤ run.len

/-- The last two words are written as an IPv4 address, `::a.b.c.d` or `::ffff:a.b.c.d`. -/
def EndsDotted (best : Option ZeroRun) (ws : List Nat) : Prop :=
  best = some ⟨0, 6⟩ ∨ best = some ⟨0, 5⟩ ∧ ws[5]? = some 0xffff
  deriving Decidable

/-- The words from number `i` on, with `lastTwo` in place of the last two of them. -/
def colonised (best : Option ZeroRun) (lastTwo : Option (List Char)) (i : Nat) : List Nat → List Char
  | [] => if best.any fun run => run.base + run.len == i then [':'] else []
  | w :: ws =>
      if best.any fun run => run.base ≤ i && i < run.base + run.len then
        (if best.any fun run => i == run.base then [':'] else []) ++ colonised best lastTwo (i + 1) ws
      else
        (if i = 0 then [] else [':']) ++
          (if i = 6 then lastTwo else none).getD (Nat.toDigits 16 w ++ colonised best lastTwo (i + 1) ws)

def coloned (a : BitVec 128) : List Char :=
  let best := bestRun (words a)
  colonised best (if EndsDotted best (words a) then some (dotted (a.setWidth 32)) else none) 0 (words a)

def inetNtop6 (a : BitVec 128) (size : Nat) : Option String :=
  if size < (coloned a).length + 1 then none else some (.ofList (coloned a))

/-! ## `getIpAddressOf` -/

/-- `sockaddr`, with what is found in it under the casts to `sockaddr_in` and `sockaddr_in6`. -/
structure SockAddr where
  saFamily : Nat
  sinAddr : BitVec 32
  sin6Addr : BitVec 128
  deriving DecidableEq, Repr

def SockAddr.inet (a : BitVec 32) : SockAddr := ⟨AF_INET, a, 0⟩

def SockAddr.inet6 (a : BitVec 128) : SockAddr := ⟨AF_INET6, 0, a⟩

/-- The buffer is full of zeros before the call. -/
def getIpV6AddressOf (a : SockAddr) : String := (inetNtop6 a.sin6Addr INET6_ADDRSTRLEN).getD ""

def getIpV4AddressOf (a : SockAddr) : String := (inetNtop4 a.sinAddr INET_ADDRSTRLEN).getD ""

def getIpAddressOf : Option SockAddr → Except Exception String
  | none => .ok ""
  | some a =>
      if a.saFamily = AF_INET6 then .ok (getIpV6AddressOf a)
      else if a.saFamily = AF_INET then .ok (getIpV4AddressOf a)
      else .error (.runtimeError ("Unknown address family:" ++ toString a.saFamily))

end SocketWrapper.Interfaces
