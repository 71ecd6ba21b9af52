import RRoadVpn.JavaText

/-! `java.util.UUID` and its text. What is read may be shorter than what is written, and
have letters of either case. -/

namespace RRoadVpn
open JavaText (Text)

structure UUID where
  mostSigBits : BitVec 64
  leastSigBits : BitVec 64
  deriving DecidableEq, Repr

namespace UUID

def letterFrom (first : Nat) (c : Char) : Option Nat :=
  if first ≤ c.toNat ∧ c.toNat < first + 6 then some (c.toNat - first + 10) else none

/-- The first letters of the alphabets `Character.digit` knows: small and capital, and both in full width. -/
def alphabets : List Nat := [0x61, 0x41, 0xff41, 0xff21]

def hexDigit (c : Char) : Option Nat := (JavaText.digit c).or (alphabets.findSome? (letterFrom · c))

/-- `Long.decode` behind the `0x`, where a sign is an error. -/
def decode (s : Text) : Option (BitVec 64) := do
  let digits ← s.mapM hexDigit
  let value := Nat.ofDigits 16 digits.reverse
  if digits ≠ [] ∧ value < 2 ^ 63 then some (BitVec.ofNat 64 value) else none

def fromString (name : Text) : Option UUID :=
  match (JavaText.split '-' name).mapM decode with
  | some [first, second, third, fourth, fifth] =>
    some ⟨((first <<< 16 ||| second) <<< 16) ||| third, fourth <<< 48 ||| fifth⟩
  | _ => none

def digits : Nat → Nat → Text
  | 0, _ => []
  | n + 1, val => digits n (val / 16) ++ [Nat.digitChar (val % 16)]

def toText (u : UUID) : Text :=
  ['-'].intercalate [digits 8 (u.mostSigBits.toNat >>> 32), digits 4 (u.mostSigBits.toNat >>> 16), digits 4 u.mostSigBits.toNat,
    digits 4 (u.leastSigBits.toNat >>> 48), digits 12 u.leastSigBits.toNat]

/-- `toLowerCase` for the letters that can be digits. -/
def lowerCase (c : Char) : Char :=
  if (0x41 ≤ c.toNat ∧ c.toNat ≤ 0x5a) ∨ (0xff21 ≤ c.toNat ∧ c.toNat ≤ 0xff3a) then Char.ofNat (c.toNat + 32) else c

def toLowerCase (s : Text) : Text := s.map lowerCase

end UUID

end RRoadVpn
