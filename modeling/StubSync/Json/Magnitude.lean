/-
When a number of a document is too great to be kept.

The digits of a number are gathered in a 64-bit word for as long as they fit,
and the digits that do not fit only move the point.  The word and the power of
ten are each taken to the nearest double before they are multiplied, so close
to the greatest double a number may be refused that could be kept.
-/
import StubSync.Text.Decimal

namespace StubSync

namespace Json

/-- The word with one more digit, if it still fits. -/
def gather? (word : Nat) (digit : Char) : Option Nat :=
  let longer := 10 * word + Decimal.digitValue digit
  if longer < Decimal.wordLimit then some longer else none

/-- Gather digits, and count those that are left over once one does not fit. -/
def gather (word : Nat) : List Char → Nat × Nat
  | [] => (word, 0)
  | digit :: rest =>
      match gather? word digit with
      | some longer => gather longer rest
      | none => (word, rest.length + 1)

/-- A natural number at the nearest double, a half going to the even one. -/
def nearestDouble (n : Nat) : Nat :=
  let unit := Nat.pow 2 (n.log2 - 52)
  let below := n / unit
  let rest := n % unit
  let above := unit < 2 * rest || 2 * rest == unit && below % 2 == 1
  (if above then below + 1 else below) * unit

/-- No finite double is found for a number by way of its word. -/
def isOutOfRange (number : Decimal.Scientific) : Bool :=
  let (word, skipped) := gather 0 number.whole
  let (word, unread) := gather word number.fraction
  let exponent := number.exponent + skipped - (number.fraction.length - unread : Nat)
  if word = 0 || exponent < 0 then false
  else if 308 < exponent then true
  else
    Decimal.doubleLimit ≤ nearestDouble word * nearestDouble (Nat.pow 10 exponent.toNat)

end Json

end StubSync
