/-
Numbers, truth values and moments of a TOML document.
-/
import StubSync.Text.Decimal
import StubSync.Text.Pieces
import StubSync.Time.Instant
import StubSync.Toml.Text
import StubSync.Toml.Value

namespace StubSync

namespace Toml

def isUnderscore (c : Char) : Bool :=
  c == '_'

/-- Digits of a base, with single underscores between digits. -/
def isRun (digit : Char → Bool) : List Char → Bool :=
  Text.isGrouped digit isUnderscore

def bare (run : List Char) : List Char :=
  run.filter fun c => !isUnderscore c

/-- A decimal run without a leading zero. -/
def isWhole (run : List Char) : Bool :=
  isRun Char.isDigit run && (run.length == 1 || run.head? != some '0')

def valueInBase (base : Nat) (run : List Char) : Nat :=
  (bare run).foldl (fun n c => base * n + (hexDigit? c).getD 0) 0

def isHexDigit (c : Char) : Bool :=
  (hexDigit? c).isSome

def isOctalDigit (c : Char) : Bool :=
  '0' ≤ c && c ≤ '7'

def isBinaryDigit (c : Char) : Bool :=
  c == '0' || c == '1'

/-- Integers are kept within 128 bits, with or without a sign. -/
def bounded? (number : Int) : Option Value :=
  if -(Nat.pow 2 127 : Int) ≤ number ∧ number < Nat.pow 2 128 then some (.integer number)
  else none

def unsigned? (text : List Char) : Option Nat :=
  match text with
  | '0' :: 'x' :: run => if isRun isHexDigit run then some (valueInBase 16 run) else none
  | '0' :: 'o' :: run => if isRun isOctalDigit run then some (valueInBase 8 run) else none
  | '0' :: 'b' :: run => if isRun isBinaryDigit run then some (valueInBase 2 run) else none
  | run => if isWhole run then some (valueInBase 10 run) else none

/-- An integer; only a decimal one may have a sign. -/
def integer? (text : List Char) : Option Value :=
  match text with
  | '+' :: run => if isWhole run then bounded? (valueInBase 10 run) else none
  | '-' :: run => if isWhole run then bounded? (-(valueInBase 10 run : Int)) else none
  | text => (unsigned? text).bind fun n => bounded? n

/-- An exponent with an optional sign; it may start with zeros. -/
def exponent? : List Char → Option Int
  | '+' :: run => if isRun Char.isDigit run then some (valueInBase 10 run) else none
  | '-' :: run => if isRun Char.isDigit run then some (-(valueInBase 10 run : Int)) else none
  | run => if isRun Char.isDigit run then some (valueInBase 10 run) else none

/-- A finite double: a whole part, then a fraction, an exponent or both. -/
def isFiniteDouble (text : List Char) : Bool :=
  let numeric := fun c => Char.isDigit c || isUnderscore c
  let whole := text.takeWhile numeric
  let rest := text.dropWhile numeric
  let fraction :=
    match rest with
    | '.' :: rest => rest.takeWhile numeric
    | _ => []
  let rest := if rest.head? = some '.' then (rest.drop 1).dropWhile numeric else rest
  let hasPoint := (text.dropWhile numeric).head? == some '.'
  let exponent :=
    match rest with
    | 'e' :: rest => exponent? rest
    | 'E' :: rest => exponent? rest
    | [] => some 0
    | _ => none
  isWhole whole && (hasPoint || !rest.isEmpty) && (!hasPoint || isRun Char.isDigit fraction) &&
    match exponent with
    | none => false
    | some exponent =>
        !Decimal.Scientific.overflows ⟨bare whole, bare fraction, exponent⟩

def dropSign : List Char → List Char
  | '+' :: rest => rest
  | '-' :: rest => rest
  | text => text

def isFloat (text : List Char) : Bool :=
  let text := dropSign text
  text == "inf".toList || text == "nan".toList || isFiniteDouble text

/-- Exactly `width` digits. -/
def fixed? (width : Nat) (text : List Char) : Option (Nat × List Char) :=
  let run := text.take width
  if run.length = width ∧ run.all Char.isDigit then
    some (Decimal.value run, text.drop width)
  else none

def sign? (expected : Char) : List Char → Option (List Char)
  | c :: rest => if c = expected then some rest else none
  | [] => none

def date? (text : List Char) : Option (List Char) := do
  let (year, text) ← fixed? 4 text
  let text ← sign? '-' text
  let (month, text) ← fixed? 2 text
  let text ← sign? '-' text
  let (day, text) ← fixed? 2 text
  if (⟨year, month, day⟩ : Day).isValid then some text else none

/-- Hours and minutes, and seconds with a fraction if they are there. -/
def clock? (text : List Char) : Option (List Char) := do
  let (hour, text) ← fixed? 2 text
  let text ← sign? ':' text
  let (minute, text) ← fixed? 2 text
  if 23 < hour || 59 < minute then none
  match text with
  | ':' :: text =>
      let (second, text) ← fixed? 2 text
      if 60 < second then none
      match text with
      | '.' :: text =>
          if (text.takeWhile Char.isDigit).isEmpty then none
          else some (text.dropWhile Char.isDigit)
      | text => some text
  | text => some text

def offset? : List Char → Option (List Char)
  | [] => some []
  | 'Z' :: rest => some rest
  | 'z' :: rest => some rest
  | c :: rest => do
      if c ≠ '+' ∧ c ≠ '-' then none
      let (hour, rest) ← fixed? 2 rest
      let rest ← sign? ':' rest
      let (minute, rest) ← fixed? 2 rest
      if 23 < hour || 59 < minute then none
      return rest

/-- A date, a time, or both with an optional offset. -/
def isMoment (text : List Char) : Bool :=
  match date? text with
  | none => clock? text == some []
  | some [] => true
  | some (c :: rest) =>
      (c == 'T' || c == 't' || c == ' ') && ((clock? rest).bind offset? == some [])

def isScalarChar (c : Char) : Bool :=
  c.isAlphanum || c == '_' || c == '+' || c == '-' || c == '.' || c == ':'

/-- The value that a run of characters spells. -/
def scalarOf? (run : List Char) : Option Value :=
  if run = "true".toList then some (.flag true)
  else if run = "false".toList then some (.flag false)
  else if isFloat run then some (.float (String.ofList run))
  else if isMoment run then some (.moment (String.ofList run))
  else integer? run

/-- A value without brackets or quotes; a date and a time may have a blank
between them. -/
def scalar? (text : List Char) : Option (Value × List Char) :=
  let run := text.takeWhile isScalarChar
  let rest := text.dropWhile isScalarChar
  match rest with
  | ' ' :: c :: more =>
      if date? run == some [] && c.isDigit then
        let clock := (c :: more).takeWhile isScalarChar
        (scalarOf? (run ++ ' ' :: clock)).map fun value => (value, more.drop (clock.length - 1))
      else (scalarOf? run).map fun value => (value, rest)
  | _ => (scalarOf? run).map fun value => (value, rest)

end Toml

end StubSync
