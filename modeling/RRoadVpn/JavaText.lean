import Mathlib.Data.List.DropRight
import Mathlib.Data.Nat.Digits.Defs

/-! What java.lang does with texts, where it is not what a list does: splitting and the
reading of numbers. -/

namespace RRoadVpn.JavaText

abbrev Text := List Char

/-- `split` at a character: empty parts at the end are dropped. -/
def split (separator : Char) (s : Text) : List Text :=
  if separator ∈ s then (s.splitOn separator).rdropWhile (· == []) else [s]

/-- The zeros of the decimal digits in the basic plane. -/
def zeros : List Nat :=
  [0x30, 0x660, 0x6f0, 0x7c0, 0x966, 0x9e6, 0xa66, 0xae6, 0xb66, 0xbe6, 0xc66, 0xce6, 0xd66, 0xde6, 0xe50, 0xed0, 0xf20,
    0x1040, 0x1090, 0x17e0, 0x1810, 0x1946, 0x19d0, 0x1a80, 0x1a90, 0x1b50, 0x1bb0, 0x1c40, 0x1c50, 0xa620, 0xa8d0,
    0xa900, 0xa9d0, 0xa9f0, 0xaa50, 0xabf0, 0xff10]

def digit (c : Char) : Option Nat :=
  (zeros.find? fun first => first ≤ c.toNat && c.toNat < first + 10).map (c.toNat - ·)

def digits (s : Text) : Option (List Nat) := s.mapM digit

/-- `parseInt` and `parseLong`, for numbers of so many bits. -/
def parseNumber (bits : Nat) (s : Text) : Option Int := do
  let (negative, s) :=
    match s with
    | '-' :: rest => (true, rest)
    | '+' :: rest => (false, rest)
    | s => (false, s)
  let digits ← digits s
  if digits = [] then none
  else
    let magnitude : Int := Nat.ofDigits 10 digits.reverse
    let value := if negative then -magnitude else magnitude
    if -2 ^ (bits - 1) ≤ value ∧ value < 2 ^ (bits - 1) then some value else none

def parseInt (s : Text) : Option Int := parseNumber 32 s

def parseLong (s : Text) : Option Int := parseNumber 64 s

/-- The message of a `NumberFormatException`. -/
def forInputString (s : Text) : Text := "For input string: \"".toList ++ s ++ ['"']

end RRoadVpn.JavaText
