/-
Instants of UTC with a resolution of one nanosecond.

Days are counted from 1970-01-01 in the proleptic Gregorian calendar.  A leap
second is the 59th second of its minute with a fraction of one second or more,
so that instants are ordered by their seconds and then by their fractions.
-/
import StubSync.Text.Decimal

namespace StubSync

structure Instant where
  /-- Seconds from the start of 1970. -/
  seconds : Int
  /-- Less than 10⁹, or less than 2 · 10⁹ in a leap second. -/
  nanos : Nat
deriving Repr, DecidableEq

/-- A day of the calendar. -/
structure Day where
  year : Int
  month : Nat
  day : Nat
deriving Repr, DecidableEq

namespace Day

def isLeapYear (year : Int) : Bool :=
  year % 4 == 0 && (year % 100 != 0 || year % 400 == 0)

def daysInMonth (year : Int) (month : Nat) : Nat :=
  match month with
  | 2 => if isLeapYear year then 29 else 28
  | 4 | 6 | 9 | 11 => 30
  | _ => 31

def isValid (date : Day) : Bool :=
  1 ≤ date.month && date.month ≤ 12 && 1 ≤ date.day &&
    date.day ≤ daysInMonth date.year date.month

/-- Days from 1970-01-01.  Years are counted from March, so that the leap day
is the last day of a year. -/
def count (date : Day) : Int :=
  let year := if date.month ≤ 2 then date.year - 1 else date.year
  let era := Int.fdiv year 400
  let yearOfEra := year - era * 400
  let month : Int := (date.month + 9) % 12
  let dayOfYear := (153 * month + 2) / 5 + date.day - 1
  let dayOfEra := yearOfEra * 365 + yearOfEra / 4 - yearOfEra / 100 + dayOfYear
  era * 146097 + dayOfEra - 719468

/-- The day with a given count from 1970-01-01. -/
def ofCount (count : Int) : Day :=
  let shifted := count + 719468
  let era := Int.fdiv shifted 146097
  let dayOfEra := shifted - era * 146097
  let yearOfEra :=
    (dayOfEra - dayOfEra / 1460 + dayOfEra / 36524 - dayOfEra / 146096) / 365
  let dayOfYear := dayOfEra - (365 * yearOfEra + yearOfEra / 4 - yearOfEra / 100)
  let shiftedMonth := (5 * dayOfYear + 2) / 153
  let day := dayOfYear - (153 * shiftedMonth + 2) / 5 + 1
  let month := if shiftedMonth < 10 then shiftedMonth + 3 else shiftedMonth - 9
  let year := yearOfEra + era * 400 + (if month ≤ 2 then 1 else 0)
  ⟨year, month.toNat, day.toNat⟩

/-- A year has four digits, or a sign and at least four digits outside of the
years from 0 to 9999. -/
def spellYear (year : Int) : List Char :=
  if 0 ≤ year ∧ year ≤ 9999 then Decimal.padded 4 year.toNat
  else (if year < 0 then '-' else '+') :: Decimal.padded 4 year.natAbs

def spell (date : Day) : List Char :=
  spellYear date.year ++ '-' :: Decimal.padded 2 date.month ++
    '-' :: Decimal.padded 2 date.day

instance : ToString Day := ⟨fun date => String.ofList date.spell⟩

end Day

namespace Instant

def secondsPerDay : Int := 86400

def day (instant : Instant) : Day :=
  Day.ofCount (Int.fdiv instant.seconds secondsPerDay)

def cmp (left right : Instant) : Ordering :=
  (compare left.seconds right.seconds).then (compare left.nanos right.nanos)

instance : Ord Instant := ⟨cmp⟩

/-- The fewest of 0, 3, 6 and 9 digits that give the fraction exactly. -/
def spellFraction (nanos : Nat) : List Char :=
  if nanos = 0 then []
  else if nanos % 1000000 = 0 then '.' :: Decimal.padded 3 (nanos / 1000000)
  else if nanos % 1000 = 0 then '.' :: Decimal.padded 6 (nanos / 1000)
  else '.' :: Decimal.padded 9 nanos

/-- The text `2024-01-01T00:00:00Z`, with a fraction if there is one. -/
def spell (instant : Instant) : List Char :=
  let ofDay := (Int.fmod instant.seconds secondsPerDay).toNat
  let leap := if instant.nanos ≥ 1000000000 then 1 else 0
  instant.day.spell ++ 'T' :: Decimal.padded 2 (ofDay / 3600) ++
    ':' :: Decimal.padded 2 (ofDay / 60 % 60) ++
    ':' :: Decimal.padded 2 (ofDay % 60 + leap) ++
    spellFraction (instant.nanos % 1000000000) ++ ['Z']

instance : ToString Instant := ⟨fun instant => String.ofList instant.spell⟩

end Instant

end StubSync
