/-
Reading a TOML document.

A document is a sequence of lines with a key and a value, or with the header
of a table to which the following keys belong.  Values in brackets and braces
may hold line ends, comments and a comma after the last item; in braces a line
may also end before or after the sign between a key and its value.
-/
import StubSync.Toml.Problem
import StubSync.Toml.Scalar

namespace StubSync

namespace Toml

def skipBlanks (text : List Char) : List Char :=
  text.dropWhile isBlankChar

/-- The text after blanks, line ends and comments; `none` if a character in
them may not stand in a document. -/
def skipLayout (inComment : Bool) : List Char → Option (List Char)
  | [] => some []
  | c :: rest =>
      if c = '\n' then skipLayout false rest
      else if c = '\r' then
        if rest.head? = some '\n' then skipLayout inComment rest else none
      else if inComment then
        if isPlainChar c then skipLayout true rest else none
      else if c = '#' then skipLayout true rest
      else if isBlankChar c then skipLayout false rest
      else some (c :: rest)

def isBareKeyChar (c : Char) : Bool :=
  c.isAlphanum || c == '_' || c == '-'

def key? (text : List Char) : Option (String × List Char) :=
  match text.takeWhile isBareKeyChar with
  | [] => lineText? text
  | run => some (String.ofList run, text.dropWhile isBareKeyChar)

/-- Keys with points between them: all but the last one, the last one, and the
text after them without leading blanks. -/
def dotted? : Nat → List Char → Option (List String × String × List Char)
  | 0, _ => none
  | fuel + 1, text => do
      let (key, text) ← key? (skipBlanks text)
      match skipBlanks text with
      | '.' :: text => do
          let (path, last, text) ← dotted? fuel text
          return (key :: path, last, text)
      | text => return ([], key, text)

/-- The greatest depth of brackets and braces, and the greatest number of keys
with points between them. -/
def depthLimit : Nat := 80

/-- Keys with points between them, as long as they are not too many. -/
def keys? (fuel : Nat) (text : List Char) : Option (List String × String × List Char) :=
  (dotted? fuel text).filter fun (path, _) => path.length < depthLimit

/-- The layout before the next character of a text. -/
def layout (text : List Char) : Except Problem (List Char) :=
  expecting text "invalid character" (skipLayout false text)

mutual

/-- A value at a place where `depth` more brackets may open. -/
def value (depth : Nat) : Nat → List Char → Except Problem (Value × List Char)
  | 0, text => .error (.before text "unexpected end")
  | fuel + 1, text =>
      match text with
      | [] => .error (.before text "missing value")
      | c :: rest =>
          if c = '"' || c = '\'' then
            match text? (c :: rest) with
            | some (content, rest) => .ok (.text content, rest)
            | none => .error (textProblem (c :: rest))
          else if c = '[' then
            if depth = 0 then .error (.before text "too many brackets")
            else items (depth - 1) [] fuel rest
          else if c = '\x7b' then
            if depth = 0 then .error (.before text "too many brackets")
            else pairs (depth - 1) [] fuel rest
          else expecting text "invalid value" (scalar? text)

/-- The items of an array from the next one on, `earlier` in reverse. -/
def items (depth : Nat) (earlier : List Value) :
    Nat → List Char → Except Problem (Value × List Char)
  | 0, text => .error (.before text "unexpected end")
  | fuel + 1, text => do
      match ← layout text with
      | ']' :: rest => return (.array earlier.reverse, rest)
      | text => do
          let (item, text) ← value depth fuel text
          match ← layout text with
          | ',' :: rest => items depth (item :: earlier) fuel rest
          | ']' :: rest => return (.array (item :: earlier).reverse, rest)
          | text => throw (.before text "missing comma between array elements, expected `,`")

/-- The entries of a table in braces from the next one on. -/
def pairs (depth : Nat) (earlier : Entries) :
    Nat → List Char → Except Problem (Value × List Char)
  | 0, text => .error (.before text "unexpected end")
  | fuel + 1, text => do
      match ← layout text with
      | '\x7d' :: rest => return (.table .inline earlier, rest)
      | start => do
          let (path, key, text) ← expecting start "invalid key" (keys? (fuel + 1) start)
          let text ← layout text
          let text ← expecting text "missing `=`" (sign? '=' text)
          let (value, text) ← value depth fuel (← layout text)
          let (_, entries) ← expecting start "duplicate key"
            (earlier.define path key value .header)
          match ← layout text with
          | ',' :: rest => pairs depth entries fuel rest
          | '\x7d' :: rest => return (.table .inline entries, rest)
          | text => throw (.before text "missing comma between key-value pairs, expected `,`")

end

/-- Nothing but blanks and a comment may follow on a line. -/
def endsLine (text : List Char) : Bool :=
  match skipBlanks text with
  | [] => true
  | c :: _ => c == '\n' || c == '\r' || c == '#'

/-- What has been read of a document: its top-level table, and the path of the
table that keys belong to. -/
structure Draft where
  root : Entries := []
  header : List String := []

/-- The path of a header and what follows the header. -/
def header? (fuel : Nat) : List Char → Option (Bool × List String × String × List Char)
  | '[' :: '[' :: text => do
      let (path, key, text) ← keys? fuel text
      let text ← sign? ']' text
      let text ← sign? ']' text
      return (true, path, key, text)
  | '[' :: text => do
      let (path, key, text) ← keys? fuel text
      let text ← sign? ']' text
      return (false, path, key, text)
  | _ => none

/-- One header, or one key with its value. -/
def expression (fuel : Nat) (draft : Draft) (text : List Char) :
    Except Problem (Draft × List Char) :=
  if text.head? = some '[' then do
    let (isElement, path, key, rest) ← expecting text "invalid table header" (header? fuel text)
    let opening := if isElement then Entries.openElement key else Entries.openTable key
    let (_, root) ← expecting text "duplicate key" (draft.root.change false opening path .header)
    return ({ root, header := path ++ [key] }, rest)
  else do
    let (path, key, rest) ← expecting text "invalid key" (keys? fuel text)
    let rest ← expecting rest "missing `=`" (sign? '=' rest)
    let (value, rest) ← value depthLimit fuel (skipBlanks rest)
    let define := fun origin entries => Entries.define path key value origin entries
    let (_, root) ← expecting text "duplicate key"
      (draft.root.change false define draft.header .header)
    return ({ draft with root }, rest)

/-- The lines of a document from the next one on. -/
def expressions : Nat → Draft → List Char → Except Problem Entries
  | 0, _, text => .error (.before text "unexpected end")
  | fuel + 1, draft, text => do
      match ← layout text with
      | [] => return draft.root
      | c :: rest =>
          let (draft, rest) ← expression (2 * rest.length + 4) draft (c :: rest)
          if endsLine rest then expressions fuel draft rest
          else
            throw (.before (skipBlanks rest) "unexpected key or value, expected newline, `#`")

/-- The top-level table of a document; a byte order mark at the start is no
part of it. -/
def read (text : String) : Except Problem Entries :=
  let text := Text.withoutOrderMark text.toList
  expressions (text.length + 1) {} text

end Toml

end StubSync
