/-
Writing a JSON document, on one line or with blanks that show its nesting.
-/
import StubSync.Json.Value

namespace StubSync

namespace Json

def hexDigit (n : Nat) : Char :=
  if n < 10 then Char.ofNat ('0'.toNat + n) else Char.ofNat ('a'.toNat + (n - 10))

/-- A quote, a backslash and control characters are escaped; all other
characters stand for themselves. -/
def escape (c : Char) : List Char :=
  if c = '"' then ['\\', '"']
  else if c = '\\' then ['\\', '\\']
  else if c = Char.ofNat 0x08 then ['\\', 'b']
  else if c = Char.ofNat 0x0C then ['\\', 'f']
  else if c = '\n' then ['\\', 'n']
  else if c = '\r' then ['\\', 'r']
  else if c = '\t' then ['\\', 't']
  else if c.toNat < 0x20 then
    ['\\', 'u', '0', '0', hexDigit (c.toNat / 16), hexDigit (c.toNat % 16)]
  else [c]

def quote (content : String) : List Char :=
  '"' :: content.toList.flatMap escape ++ ['"']

/-- What separates the parts of a document: a line end with `depth` times two
blanks, or nothing; and what follows a colon. -/
structure Layout where
  lineEnd : Nat → List Char
  afterColon : List Char

def Layout.compact : Layout where
  lineEnd _ := []
  afterColon := []

def Layout.indented : Layout where
  lineEnd depth := '\n' :: List.replicate (2 * depth) ' '
  afterColon := [' ']

mutual

def write (layout : Layout) (depth : Nat) : Json → List Char
  | .null => "null".toList
  | .flag true => "true".toList
  | .flag false => "false".toList
  | .number spelling => spelling.toList
  | .text content => quote content
  | .list [] => ['[', ']']
  | .list (item :: others) =>
      '[' :: layout.lineEnd (depth + 1) ++ write layout (depth + 1) item ++
        writeItems layout (depth + 1) others ++ layout.lineEnd depth ++ [']']
  | .object [] => ['\x7b', '\x7d']
  | .object (entry :: others) =>
      '\x7b' :: layout.lineEnd (depth + 1) ++ writeEntry layout (depth + 1) entry ++
        writeEntries layout (depth + 1) others ++ layout.lineEnd depth ++ ['\x7d']
  | .damaged => "null".toList

/-- Items after the first one. -/
def writeItems (layout : Layout) (depth : Nat) : List Json → List Char
  | [] => []
  | item :: others =>
      ',' :: layout.lineEnd depth ++ write layout depth item ++ writeItems layout depth others

def writeEntry (layout : Layout) (depth : Nat) : String × Json → List Char
  | (key, value) => quote key ++ ':' :: layout.afterColon ++ write layout depth value

/-- Entries after the first one. -/
def writeEntries (layout : Layout) (depth : Nat) : List (String × Json) → List Char
  | [] => []
  | entry :: others =>
      ',' :: layout.lineEnd depth ++ writeEntry layout depth entry ++
        writeEntries layout depth others

end

/-- The document on one line. -/
def compact (value : Json) : String :=
  String.ofList (write .compact 0 value)

/-- The document with one item or entry on a line. -/
def pretty (value : Json) : String :=
  String.ofList (write .indented 0 value)

end Json

end StubSync
