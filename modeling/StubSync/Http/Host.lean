/-
Hosts of addresses: names, four bytes with points between them, and eight
numbers in brackets with colons between them.

Every host has one spelling that requests are sent with.  A name with letters
outside of ASCII stays as it is.
-/
import StubSync.Text.Decimal
import StubSync.Text.Pieces

namespace StubSync

namespace Host

def hexDigit? (c : Char) : Option Nat :=
  if c.isDigit then some (Decimal.digitValue c)
  else if 'a' ≤ c && c ≤ 'f' then some (c.toNat - 'a'.toNat + 10)
  else if 'A' ≤ c && c ≤ 'F' then some (c.toNat - 'A'.toNat + 10)
  else none

/-- The number that digits of a base spell; no digits spell zero. -/
def inBase? (base : Nat) (run : List Char) : Option Nat :=
  run.foldlM (fun n c => do
    let digit ← hexDigit? c
    if digit < base then some (base * n + digit) else none) 0

section Points

/-- The number of one part of a host that is a number: in hexadecimal digits
after `0x`, in octal ones after `0`, or decimal. -/
def number? (part : List Char) : Option Nat :=
  match part with
  | [] => none
  | '0' :: 'x' :: run => inBase? 16 run
  | ['0'] => some 0
  | '0' :: run => inBase? 8 run
  | run => inBase? 10 run

/-- Four bytes with points between them, given by up to four numbers of which
the last one fills the bytes that are left. -/
def ofNumbers? (numbers : List Nat) : Option String := do
  let last ← numbers.getLast?
  let leading := numbers.dropLast
  if 3 < leading.length || leading.any (255 < ·) then none
  if Nat.pow 256 (4 - leading.length) ≤ last then none
  let whole := leading.zipIdx.foldl (fun total (n, place) => total + n * Nat.pow 256 (3 - place))
    last
  let bytes := [3, 2, 1, 0].map fun place => toString (whole / Nat.pow 256 place % 256)
  return ".".intercalate bytes

end Points

section Colons

/-- A number of one to four hexadecimal digits. -/
def piece? (run : List Char) : Option Nat :=
  if run.isEmpty || 4 < run.length then none else inBase? 16 run

/-- A byte in decimal digits without a zero in front. -/
def byte? (run : List Char) : Option Nat :=
  if 1 < run.length && run.head? = some '0' then none
  else (Decimal.whole? run).filter (· < 256)

/-- The two numbers of four bytes with points between them. -/
def bytePieces? (text : List Char) : Option (List Nat) := do
  match ← (Text.split '.' text).mapM byte? with
  | [a, b, c, d] => return [256 * a + b, 256 * c + d]
  | _ => none

/-- Numbers with colons between them; at the end of a host four bytes may
stand for the last two. -/
def pieces? (atEnd : Bool) (text : List Char) : Option (List Nat) := do
  if text.isEmpty then return []
  let runs := Text.split ':' text
  let leading ← runs.dropLast.mapM piece?
  let last := runs.getLastD []
  if atEnd && last.contains '.' then return leading ++ (← bytePieces? last)
  return leading ++ [← piece? last]

/-- The text before the first two colons in a row and the text after them. -/
def cutAtGap? : List Char → Option (List Char × List Char)
  | ':' :: ':' :: rest => some ([], rest)
  | c :: rest => (cutAtGap? rest).map fun (before, after) => (c :: before, after)
  | [] => none

/-- The eight numbers of a host in brackets; a gap stands for zeros. -/
def eight? (text : List Char) : Option (List Nat) := do
  match cutAtGap? text with
  | some (before, after) =>
      let before ← pieces? false before
      let after ← pieces? true after
      let given := before.length + after.length
      if 7 < given then none
      return before ++ List.replicate (8 - given) 0 ++ after
  | none => do
      let pieces ← pieces? true text
      if pieces.length = 8 then some pieces else none

/-- The first of the longest runs of zeros: where it starts, and its length. -/
def longestGap (pieces : List Nat) : Nat × Nat :=
  (List.range pieces.length).foldl (fun (start, length) place =>
    let zeros := ((pieces.drop place).takeWhile (· == 0)).length
    if length < zeros then (place, zeros) else (start, length)) (0, 0)

/-- The shortest spelling of eight numbers. -/
def ofEight (pieces : List Nat) : String :=
  let spell := fun (part : List Nat) =>
    ":".intercalate (part.map fun piece => String.ofList (Nat.toDigits 16 piece))
  let (start, length) := longestGap pieces
  if length < 2 then "[" ++ spell pieces ++ "]"
  else "[" ++ spell (pieces.take start) ++ "::" ++ spell (pieces.drop (start + length)) ++ "]"

end Colons

section Names

/-- The bytes of a text in which `%` and two hexadecimal digits stand for one
byte. -/
def decoded : List Char → List UInt8
  | [] => []
  | '%' :: high :: low :: rest =>
      match hexDigit? high, hexDigit? low with
      | some h, some l => UInt8.ofNat (16 * h + l) :: decoded rest
      | _, _ => String.utf8EncodeChar '%' ++ decoded (high :: low :: rest)
  | c :: rest => String.utf8EncodeChar c ++ decoded rest

/-- The characters that a name may not have. -/
def isForbidden (c : Char) : Bool :=
  c.toNat ≤ 0x20 || c.toNat = 0x7F ||
    ['#', '/', ':', '<', '>', '?', '@', '[', '\\', ']', '^', '|', '%'].contains c

/-- A name in lower case; one whose last part is a number has to be one of four
bytes. -/
def ofName? (text : List Char) : Option String := do
  let text := Text.lowerAscii (← String.fromUTF8? ⟨(decoded text).toArray⟩).toList
  if text.isEmpty || text.any isForbidden then none
  let parts := Text.split '.' text
  let parts := if 1 < parts.length && parts.getLast? = some [] then parts.dropLast else parts
  let last := parts.getLastD []
  if (number? last).isSome || !last.isEmpty && last.all Char.isDigit then
    ofNumbers? (← parts.mapM number?)
  else return String.ofList text

end Names

/-- The host that a text gives, if it gives one. -/
def read? (text : List Char) : Option String :=
  match text with
  | '[' :: rest =>
      if rest.getLast? = some ']' then (eight? rest.dropLast).map ofEight else none
  | _ => ofName? text

end Host

end StubSync
