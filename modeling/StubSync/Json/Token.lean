/-
The tokens of a JSON document.

A document is scanned character by character.  A word, that is a number or one
of three names, ends at the first character that cannot belong to it; a text
ends at its closing quote.
-/
import StubSync.Json.Value

namespace StubSync

namespace Json

/-- A word is kept as it is written; a text is `none` if it has an escape
that denotes no character. -/
inductive Token where
  | openList
  | closeList
  | openObject
  | closeObject
  | comma
  | colon
  | text (content : Option String)
  | word (spelling : String)
deriving Repr, DecidableEq

/-- A piece of a text: a character, or a number in hexadecimal digits, which
is a character or one half of a pair that denotes one. -/
inductive Piece where
  | char (c : Char)
  | unit (value : Nat)
deriving Repr, DecidableEq

def isHighHalf (value : Nat) : Bool :=
  0xD800 ≤ value && value < 0xDC00

def isLowHalf (value : Nat) : Bool :=
  0xDC00 ≤ value && value < 0xE000

/-- The character of a pair of halves. -/
def ofHalves (high low : Nat) : Char :=
  Char.ofNat (0x10000 + (high - 0xD800) * 0x400 + (low - 0xDC00))

/-- The text that pieces denote, if every half has its partner. -/
def denoted? : List Piece → Option (List Char)
  | [] => some []
  | .char c :: others => (denoted? others).map (c :: ·)
  | [.unit value] =>
      if isHighHalf value || isLowHalf value then none else some [Char.ofNat value]
  | .unit value :: .unit low :: others =>
      if isHighHalf value then
        if isLowHalf low then (denoted? others).map (ofHalves value low :: ·) else none
      else if isLowHalf value then none
      else (denoted? (.unit low :: others)).map (Char.ofNat value :: ·)
  | .unit value :: .char c :: others =>
      if isHighHalf value || isLowHalf value then none
      else (denoted? others).map fun text => Char.ofNat value :: c :: text

def hexValue? (c : Char) : Option Nat :=
  if c.isDigit then some (Decimal.digitValue c)
  else if 'a' ≤ c && c ≤ 'f' then some (c.toNat - 'a'.toNat + 10)
  else if 'A' ≤ c && c ≤ 'F' then some (c.toNat - 'A'.toNat + 10)
  else none

/-- The character that a letter after a backslash stands for. -/
def escaped? : Char → Option Char
  | '"' => some '"'
  | '\\' => some '\\'
  | '/' => some '/'
  | 'b' => some (Char.ofNat 0x08)
  | 'f' => some (Char.ofNat 0x0C)
  | 'n' => some '\n'
  | 'r' => some '\r'
  | 't' => some '\t'
  | _ => none

def isSpace (c : Char) : Bool :=
  c == ' ' || c == '\t' || c == '\n' || c == '\r'

def isWordChar (c : Char) : Bool :=
  c.isAlphanum || c == '+' || c == '-' || c == '.'

def mark? : Char → Option Token
  | '[' => some .openList
  | ']' => some .closeList
  | '\x7b' => some .openObject
  | '\x7d' => some .closeObject
  | ',' => some .comma
  | ':' => some .colon
  | _ => none

/-- Where a scan stands; what has been read of a token is in reverse. -/
inductive Place where
  | between
  | inWord (earlier : List Char)
  | inText (earlier : List Piece)
  | afterBackslash (earlier : List Piece)
  | inCode (earlier : List Piece) (left value : Nat)
deriving Repr, DecidableEq

/-- A scan on its way: its place, and the tokens before it in reverse. -/
structure Scan where
  place : Place := .between
  earlier : List Token := []
deriving Repr, DecidableEq

namespace Scan

/-- The scan with the word that it stands in ended. -/
def endWord (scan : Scan) : Scan :=
  match scan.place with
  | .inWord earlier => ⟨.between, .word (String.ofList earlier.reverse) :: scan.earlier⟩
  | _ => scan

/-- One character outside of texts and words. -/
def start? (earlier : List Token) (c : Char) : Option Scan :=
  if isSpace c then some ⟨.between, earlier⟩
  else if c = '"' then some ⟨.inText [], earlier⟩
  else if isWordChar c then some ⟨.inWord [c], earlier⟩
  else (mark? c).map fun token => ⟨.between, token :: earlier⟩

def step? (scan : Scan) (c : Char) : Option Scan :=
  match scan.place with
  | .between => start? scan.earlier c
  | .inWord earlier =>
      if isWordChar c then some { scan with place := .inWord (c :: earlier) }
      else start? scan.endWord.earlier c
  | .inText earlier =>
      if c = '"' then
        let content := (denoted? earlier.reverse).map String.ofList
        some ⟨.between, .text content :: scan.earlier⟩
      else if c = '\\' then some { scan with place := .afterBackslash earlier }
      else if c.toNat < 0x20 then none
      else some { scan with place := .inText (.char c :: earlier) }
  | .afterBackslash earlier =>
      if c = 'u' then some { scan with place := .inCode earlier 4 0 }
      else (escaped? c).map fun meant => { scan with place := .inText (.char meant :: earlier) }
  | .inCode earlier left value =>
      (hexValue? c).map fun digit =>
        let value := 16 * value + digit
        if left ≤ 1 then { scan with place := .inText (.unit value :: earlier) }
        else { scan with place := .inCode earlier (left - 1) value }

end Scan

/-- The tokens of a text; `none` if the text ends within a token or has a
character that belongs to none. -/
def tokens? (text : List Char) : Option (List Token) := do
  let scan ← text.foldlM Scan.step? {}
  let scan := scan.endWord
  if scan.place = .between then some scan.earlier.reverse else none

end Json

end StubSync
