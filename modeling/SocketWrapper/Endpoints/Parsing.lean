import SocketWrapper.Interfaces.Utils
import SocketWrapper.Lib.Numerals

/-!
# Reading the texts of addresses

`inet_addr` and `inet_pton`, as the functions that connect, bind and send call them.
-/

namespace SocketWrapper.Endpoints

open Numerals

/-- The characters before the first NUL. -/
def cStr (text : String) : List Char := text.toList.takeWhile (· ≠ '\x00')

def hexDigitValue (c : Char) : Option Nat :=
  if '0' ≤ c ∧ c ≤ '9' then some (c.toNat - '0'.toNat)
  else if 'a' ≤ c ∧ c ≤ 'f' then some (c.toNat - 'a'.toNat + 10)
  else if 'A' ≤ c ∧ c ≤ 'F' then some (c.toNat - 'A'.toNat + 10)
  else none

def isDigit (c : Char) : Bool := '0' ≤ c && c ≤ '9'

def isSpace (c : Char) : Bool := c ∈ [' ', '\t', '\n', '\x0b', '\x0c', '\r']

/-! ## `inet_addr` -/

/-- The value of the digits of a base at the beginning, and what is behind them. -/
def numeral (base : Nat) (text : List Char) : Nat × List Char :=
  let inBase := fun c => (hexDigitValue c).any (· < base)
  (value base 0 ((text.takeWhile inBase).filterMap hexDigitValue), text.dropWhile inBase)

/-- `strtoul` with base 0, for a text that begins with a digit. -/
def strtoul (text : List Char) : Nat × List Char :=
  match text with
  | '0' :: x :: rest =>
      if (x = 'x' ∨ x = 'X') ∧ rest.head?.any fun c => (hexDigitValue c).isSome then numeral 16 rest
      else numeral 8 text
  | '0' :: [] => numeral 8 text
  | _ => numeral 10 text

/-- The numbers between the dots, of which there may be as many as `dots`, and what is behind the last. Those
before a dot are octets. -/
def parts (dots : Nat) (text : List Char) : Option (List Nat × Nat × List Char) :=
  if !text.head?.any isDigit then none
  else
    match strtoul text, dots with
    | (val, '.' :: rest), dots + 1 =>
        if 0xff < val then none
        else (parts dots rest).map fun (octets, last, rest) => (val :: octets, last, rest)
    | (_, '.' :: _), 0 => none
    | (val, rest), _ => if 0xffffffff < val then none else some ([], val, rest)

/-- The largest last number after so many octets. -/
def maxLast (octets : Nat) : Nat := 2 ^ (8 * (4 - octets)) - 1

def INADDR_NONE : BitVec 32 := 0xffffffff

/-- The last number fills the octets that are left. Anything may follow it after a space. -/
def inetAton (text : List Char) : Option (BitVec 32) :=
  match parts 3 text with
  | none => none
  | some (octets, last, rest) =>
      if !rest.head?.all isSpace then none
      else if maxLast octets.length < last then none
      else some (.ofNat 32 (value 256 0 octets * 2 ^ (8 * (4 - octets.length)) + last))

def inetAddr (text : String) : BitVec 32 := (inetAton (cStr text)).getD INADDR_NONE

/-! ## `inet_pton` -/

/-- The octets, with `done` those before the one that is written at `tp`. -/
def scanOctets (done : List Nat) (tp : Nat) (sawDigit : Bool) (octets : Nat) : List Char → Option (List Nat)
  | [] => if octets < 4 then none else some (done ++ [tp])
  | ch :: src =>
      if isDigit ch then
        let new := tp * 10 + (ch.toNat - '0'.toNat)
        if sawDigit && tp == 0 then none
        else if 255 < new then none
        else if sawDigit then scanOctets done new true octets src
        else if 4 < octets + 1 then none
        else scanOctets done new true (octets + 1) src
      else if ch = '.' ∧ sawDigit then
        if octets = 4 then none else scanOctets (done ++ [tp]) 0 false octets src
      else none

def inetPton4 (src : List Char) : Option (List Nat) := scanOctets [] 0 false 0 src

/-- What has been read of an IPv6 address: the words that are complete, how many of them stand before `::`,
and the digits of the word that is not. -/
structure Scanned where
  words : List Nat
  colonp : Option Nat
  xdigitsSeen : Nat
  val : Nat
  deriving DecidableEq, Repr

/-- The loop, with what is left from the beginning of the current word on. -/
def scanWords (curtok : List Char) (s : Scanned) : List Char → Option Scanned
  | [] => some s
  | ch :: src =>
      match hexDigitValue ch with
      | some digit =>
          if s.xdigitsSeen = 4 then none
          else if 0xffff < s.val * 16 + digit then none
          else scanWords curtok { s with val := s.val * 16 + digit, xdigitsSeen := s.xdigitsSeen + 1 } src
      | none =>
          if ch = ':' then
            if s.xdigitsSeen = 0 then
              if s.colonp.isSome then none
              else scanWords src { s with colonp := some s.words.length } src
            else if src = [] then none
            else if 8 < s.words.length + 1 then none
            else scanWords src ⟨s.words ++ [s.val], s.colonp, 0, 0⟩ src
          else if ch = '.' ∧ s.words.length + 2 ≤ 8 then
            match inetPton4 curtok with
            | some [a, b, c, d] => some ⟨s.words ++ [a * 256 + b, c * 256 + d], s.colonp, 0, s.val⟩
            | _ => none
          else none

/-- The word at the end is complete too. -/
def Scanned.finish (s : Scanned) : Option Scanned :=
  if 0 < s.xdigitsSeen then
    if 8 < s.words.length + 1 then none else some { s with words := s.words ++ [s.val] }
  else some s

/-- Zeros for `::`, of which there is at least one. -/
def Scanned.expand (s : Scanned) : Option (List Nat) :=
  match s.colonp with
  | none => if s.words.length = 8 then some s.words else none
  | some n =>
      if s.words.length = 8 then none
      else some (s.words.take n ++ List.replicate (8 - s.words.length) 0 ++ s.words.drop n)

def scanAll (src : List Char) : Option (BitVec 128) := do
  let s ← scanWords src ⟨[], none, 0, 0⟩ src
  let s ← s.finish
  let words ← s.expand
  return .ofNat 128 (value (2 ^ 16) 0 words)

/-- A text that begins with a colon begins with two. -/
def inetPton6 (src : List Char) : Option (BitVec 128) :=
  match src with
  | [] => none
  | ':' :: src => if src.head? = some ':' then scanAll src else none
  | src => scanAll src

end SocketWrapper.Endpoints
