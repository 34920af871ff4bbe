/-
Texts of a TOML document: in quotes or apostrophes, on one line or several.
-/

namespace StubSync

namespace Toml

/-- The only control characters that may stand in a document are tabs and the
ends of lines. -/
def isPlainChar (c : Char) : Bool :=
  c == '\t' || 0x20 ≤ c.toNat && c.toNat != 0x7F

def isBlankChar (c : Char) : Bool :=
  c == ' ' || c == '\t'

/-- An escape that has been opened by a backslash, or whose code has been read
up to some hexadecimal digits. -/
inductive Escape where
  | opened
  | code (left value : Nat)
deriving Repr, DecidableEq

def hexDigit? (c : Char) : Option Nat :=
  if c.isDigit then some (c.toNat - '0'.toNat)
  else if 'a' ≤ c && c ≤ 'f' then some (c.toNat - 'a'.toNat + 10)
  else if 'A' ≤ c && c ≤ 'F' then some (c.toNat - 'A'.toNat + 10)
  else none

def namedEscape? : Char → Option Char
  | 'b' => some (Char.ofNat 0x08)
  | 't' => some '\t'
  | 'n' => some '\n'
  | 'f' => some (Char.ofNat 0x0C)
  | 'r' => some '\r'
  | 'e' => some (Char.ofNat 0x1B)
  | '"' => some '"'
  | '\\' => some '\\'
  | _ => none

def codeLength? : Char → Option Nat
  | 'x' => some 2
  | 'u' => some 4
  | 'U' => some 8
  | _ => none

/-- One more character of an escape: the escape goes on, or it stands for a
character. -/
def Escape.step? (escape : Escape) (c : Char) : Option (Escape ⊕ Char) :=
  match escape with
  | .opened =>
      match namedEscape? c with
      | some meant => some (.inr meant)
      | none => (codeLength? c).map fun length => .inl (.code length 0)
  | .code left value => do
      let value := 16 * value + (← hexDigit? c)
      if left ≤ 1 then
        if value.isValidChar then some (.inr (Char.ofNat value)) else none
      else some (.inl (.code (left - 1) value))

def push (c : Char) (read : Option (List Char × List Char)) :
    Option (List Char × List Char) :=
  read.map fun (content, rest) => (c :: content, rest)

/-- The rest of a text in quotes on one line. -/
def quoted? (escape : Option Escape) : List Char → Option (List Char × List Char)
  | [] => none
  | c :: rest =>
      match escape with
      | some escape =>
          match escape.step? c with
          | none => none
          | some (.inl escape) => quoted? (some escape) rest
          | some (.inr meant) => push meant (quoted? none rest)
      | none =>
          if c = '"' then some ([], rest)
          else if c = '\\' then quoted? (some .opened) rest
          else if isPlainChar c then push c (quoted? none rest)
          else none

/-- The rest of a text in apostrophes on one line. -/
def literal? : List Char → Option (List Char × List Char)
  | [] => none
  | c :: rest =>
      if c = '\'' then some ([], rest)
      else if isPlainChar c then push c (literal? rest)
      else none

/-- Three marks end a text of several lines; up to two marks directly before
them belong to the text. -/
def closing? (mark : Char) : List Char → Option (List Char × List Char)
  | a :: b :: c :: rest =>
      if a = mark ∧ b = mark ∧ c = mark then
        let more := (rest.takeWhile (· == mark)).take 2
        some (more, rest.drop more.length)
      else none
  | _ => none

/-- A character that may stand in a text of several lines. -/
def isLineChar (c : Char) (rest : List Char) : Bool :=
  c == '\n' || c == '\r' && rest.head? == some '\n' || isPlainChar c

/-- Where the reading of a text of several lines stands: between characters,
in an escape, after a backslash that has to end its line, or in the blanks
that such a backslash joins. -/
inductive Fold where
  | between
  | inEscape (current : Escape)
  | ending
  | joining
deriving Repr, DecidableEq

/-- A character of the text ends it if it is a mark here. -/
def Fold.mayClose : Fold → Bool
  | .between | .joining => true
  | .inEscape _ | .ending => false

/-- A blank, or the carriage return of a line end. -/
def isFoldBlank (c : Char) (rest : List Char) : Bool :=
  isBlankChar c || c == '\r' && rest.head? == some '\n'

/-- The next place, and the character that the text gains. -/
def Fold.step? (fold : Fold) (c : Char) (rest : List Char) : Option (Fold × Option Char) :=
  match fold with
  | .between => plain
  | .joining => if c = '\n' || isFoldBlank c rest then some (.joining, none) else plain
  | .ending => ending
  | .inEscape current =>
      match current.step? c with
      | some (.inl next) => some (.inEscape next, none)
      | some (.inr meant) => some (.between, some meant)
      | none => if current = .opened then ending else none
where
  plain : Option (Fold × Option Char) :=
    if c = '\\' then some (.inEscape .opened, none)
    else if isLineChar c rest then some (.between, some c)
    else none
  ending : Option (Fold × Option Char) :=
    if c = '\n' then some (.joining, none)
    else if isFoldBlank c rest then some (.ending, none)
    else none

/-- The rest of a text in triple quotes. -/
def quotedLines? (fold : Fold) : List Char → Option (List Char × List Char)
  | [] => none
  | c :: rest =>
      match if fold.mayClose then closing? '"' (c :: rest) else none with
      | some closed => some closed
      | none =>
          match fold.step? c rest with
          | none => none
          | some (fold, none) => quotedLines? fold rest
          | some (fold, some meant) => push meant (quotedLines? fold rest)

/-- The rest of a text in triple apostrophes. -/
def literalLines? : List Char → Option (List Char × List Char)
  | [] => none
  | c :: rest =>
      match closing? '\'' (c :: rest) with
      | some closed => some closed
      | none => if isLineChar c rest then push c (literalLines? rest) else none

/-- A line end that directly follows the opening marks is no part of the
text. -/
def skipFirstLineEnd : List Char → List Char
  | '\n' :: rest => rest
  | '\r' :: '\n' :: rest => rest
  | text => text

/-- A text on one line, which is what a key may be. -/
def lineText? : List Char → Option (String × List Char)
  | '"' :: rest => (quoted? none rest).map fun (content, rest) => (String.ofList content, rest)
  | '\'' :: rest => (literal? rest).map fun (content, rest) => (String.ofList content, rest)
  | _ => none

/-- A text of any form. -/
def text? : List Char → Option (String × List Char)
  | '"' :: '"' :: '"' :: rest =>
      (quotedLines? .between (skipFirstLineEnd rest)).map fun (content, rest) =>
        (String.ofList content, rest)
  | '\'' :: '\'' :: '\'' :: rest =>
      (literalLines? (skipFirstLineEnd rest)).map fun (content, rest) =>
        (String.ofList content, rest)
  | text => lineText? text

end Toml

end StubSync
