/-
Natural numbers written in ASCII decimal digits.
-/

namespace StubSync

namespace Decimal

def digitValue (c : Char) : Nat :=
  c.toNat - '0'.toNat

/-- The number that a run of digits denotes, most significant digit first. -/
def value (run : List Char) : Nat :=
  run.foldl (fun n c => 10 * n + digitValue c) 0

/-- The digits of a number, without leading zeros. -/
def digits (n : Nat) : List Char :=
  Nat.toDigits 10 n

/-- The longest run of digits at the front of a text, if there is one, and
what follows it. -/
def number? (text : List Char) : Option (Nat × List Char) :=
  match text.takeWhile Char.isDigit with
  | [] => none
  | run => some (value run, text.dropWhile Char.isDigit)

/-- The number that a whole text of digits denotes. -/
def whole? (text : List Char) : Option Nat :=
  match number? text with
  | some (n, []) => some n
  | _ => none

/-- The digits of a number behind as many zeros as fill `width`. -/
def padded (width n : Nat) : List Char :=
  let written := digits n
  List.replicate (width - written.length) '0' ++ written

/-- One past the greatest number that a 64-bit word holds. -/
def wordLimit : Nat := Nat.pow 2 64

/-- The first magnitude that a double rounds to infinity. -/
def doubleLimit : Nat := Nat.pow 2 1024 - Nat.pow 2 970

/-- No finite double is next to `mantissa` · 10 ^ `exponent`. -/
def overflowsDouble (mantissa : Nat) (exponent : Int) : Bool :=
  if mantissa = 0 then false
  else if 400 < exponent then true
  else if 0 ≤ exponent then doubleLimit ≤ mantissa * Nat.pow 10 exponent.toNat
  else if (digits mantissa).length ≤ exponent.natAbs then false
  else doubleLimit * Nat.pow 10 exponent.natAbs ≤ mantissa

/-- A number taken apart: what stands before the point, after it, and the
exponent. -/
structure Scientific where
  whole : List Char
  fraction : List Char := []
  exponent : Int := 0
deriving Repr, DecidableEq

def Scientific.overflows (number : Scientific) : Bool :=
  overflowsDouble (value (number.whole ++ number.fraction))
    (number.exponent - number.fraction.length)

end Decimal

end StubSync
