/-
Reading an instant from a date, a time and an offset.

The form is `2024-01-01T00:00:00Z` with some freedom: numbers may have fewer
digits, blanks may stand before numbers and marks, `t` or a blank may stand
for the `T`, and the offset may be `UTC`, `Z` or hours and minutes.
-/
import StubSync.Text.Blank
import StubSync.Time.Instant

namespace StubSync

namespace Instant

/-- Between one and `width` digits, blanks before them allowed. -/
def digits? (width : Nat) (text : List Char) : Option (Nat × List Char) :=
  let text := Text.trimStart text
  match (text.takeWhile Char.isDigit).take width with
  | [] => none
  | run => some (Decimal.value run, text.drop run.length)

def mark? (expected : Char) (text : List Char) : Option (List Char) :=
  match Text.trimStart text with
  | c :: rest => if c = expected then some rest else none
  | [] => none

/-- A year has up to four digits, or a sign and any number of digits. -/
def year? (text : List Char) : Option (Int × List Char) :=
  match Text.trimStart text with
  | '-' :: rest => (Decimal.number? rest).map fun (n, rest) => (-(n : Int), rest)
  | '+' :: rest => (Decimal.number? rest).map fun (n, rest) => ((n : Int), rest)
  | text => (digits? 4 text).map fun (n, rest) => ((n : Int), rest)

/-- A fraction of a second in nanoseconds; digits after the ninth are passed
over. -/
def fraction? : List Char → Option (Nat × List Char)
  | '.' :: rest =>
      match rest.takeWhile Char.isDigit with
      | [] => none
      | run =>
          let kept := run.take 9
          some (Decimal.value kept * Nat.pow 10 (9 - kept.length), rest.dropWhile Char.isDigit)
  | text => some (0, text)

def twoDigits? : List Char → Option (Nat × List Char)
  | c :: d :: rest =>
      if c.isDigit && d.isDigit then some (Decimal.value [c, d], rest) else none
  | _ => none

/-- Hours and minutes of an offset, in seconds; colons and blanks may stand
between them. -/
def clockOffset? (text : List Char) : Option (Int × List Char) := do
  let (hours, rest) ← twoDigits? text
  let rest := rest.dropWhile fun c => c == ':' || Text.isBlank c
  let (minutes, rest) ← twoDigits? rest
  if minutes < 60 then some ((hours * 3600 + minutes * 60 : Nat), rest) else none

/-- Seconds east of UTC. -/
def offset? (text : List Char) : Option (Int × List Char) :=
  match Text.trimStart text with
  | u :: t :: c :: rest =>
      if [u, t, c].map Char.toUpper = ['U', 'T', 'C'] then some (0, rest)
      else signed (u :: t :: c :: rest)
  | text => signed text
where
  signed : List Char → Option (Int × List Char)
    | 'Z' :: rest => some (0, rest)
    | 'z' :: rest => some (0, rest)
    | '+' :: rest => clockOffset? rest
    | '-' :: rest => (clockOffset? rest).map fun (n, rest) => (-n, rest)
    | '−' :: rest => (clockOffset? rest).map fun (n, rest) => (-n, rest)
    | _ => none

def day? (text : List Char) : Option (Day × List Char) := do
  let (year, text) ← year? text
  let text ← mark? '-' text
  let (month, text) ← digits? 2 text
  let text ← mark? '-' text
  let (day, text) ← digits? 2 text
  return (⟨year, month, day⟩, text)

def separator? : List Char → Option (List Char)
  | 'T' :: rest => some rest
  | 't' :: rest => some rest
  | ' ' :: rest => some rest
  | _ => none

/-- The first and the last year that a date may lie in. -/
def yearRange : Int × Int := (-262143, 262142)

def hasYearInRange (instant : Instant) : Bool :=
  let year := instant.day.year
  yearRange.1 ≤ year && year ≤ yearRange.2

/-- The instant that a text gives, if it gives one. -/
def read? (text : String) : Option Instant := do
  let (date, text) ← day? text.toList
  let text ← separator? text
  let (hour, text) ← digits? 2 text
  let text ← mark? ':' text
  let (minute, text) ← digits? 2 text
  let text ← mark? ':' text
  let (second, text) ← digits? 2 text
  let (nanos, text) ← fraction? text
  let (offset, text) ← offset? text
  guard (Text.trimStart text).isEmpty
  guard (date.isValid && yearRange.1 ≤ date.year && date.year ≤ yearRange.2)
  guard (hour < 24 && minute < 60 && second ≤ 60)
  guard (offset.natAbs < 86400)
  let leap := second = 60
  let second := if leap then 59 else second
  let nanos := if leap then nanos + 1000000000 else nanos
  let ofDay : Int := hour * 3600 + minute * 60 + second
  let instant : Instant := ⟨date.count * secondsPerDay + ofDay - offset, nanos⟩
  guard instant.hasYearInRange
  return instant

end Instant

end StubSync
