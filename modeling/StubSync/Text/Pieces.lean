/-
Cutting texts into pieces: lines with their endings, parts between marks.
-/

namespace StubSync

namespace Text

/-- The lines of a text, each with its line feed; only the last one may lack
it, and no line is empty. -/
def lines : List Char → List (List Char)
  | [] => []
  | '\n' :: rest => ['\n'] :: lines rest
  | c :: rest =>
      match lines rest with
      | [] => [[c]]
      | line :: others => (c :: line) :: others

/-- What follows `lead` in a text that starts with it. -/
def after? : List Char → List Char → Option (List Char)
  | [], text => some text
  | _ :: _, [] => none
  | m :: lead, c :: text => if m = c then after? lead text else none

/-- A text cut at each `mark`; there is one part more than there are marks. -/
def split (mark : Char) : List Char → List (List Char)
  | [] => [[]]
  | c :: rest =>
      if c = mark then [] :: split mark rest
      else
        match split mark rest with
        | [] => [[c]]
        | part :: others => (c :: part) :: others

/-- The text before the first `mark` and the text after it. -/
def cutAt? (mark : Char) : List Char → Option (List Char × List Char)
  | [] => none
  | c :: rest =>
      if c = mark then some ([], rest)
      else (cutAt? mark rest).map fun parts => (c :: parts.1, parts.2)

/-- The text without the copies of `mark` that end it. -/
def dropTrailing (mark : Char) (text : String) : String :=
  String.ofList (text.toList.reverse.dropWhile (· == mark)).reverse

def startsWith (text lead : String) : Bool :=
  (after? lead.toList text.toList).isSome

/-- The phrase stands somewhere in the text. -/
def containsPhrase (phrase : List Char) : List Char → Bool
  | [] => phrase.isEmpty
  | c :: rest => (after? phrase (c :: rest)).isSome || containsPhrase phrase rest

/-- Members, with at most one separator between two of them. -/
def isGrouped (member separator : Char → Bool) : List Char → Bool
  | [] => false
  | [c] => member c
  | c :: d :: rest =>
      member c &&
        (isGrouped member separator (d :: rest) ||
          separator d && isGrouped member separator rest)

/-- The text without a byte order mark at its start. -/
def withoutOrderMark : List Char → List Char
  | c :: rest => if c.toNat = 0xFEFF then rest else c :: rest
  | [] => []

/-- ASCII letters in lower case; all other characters stay. -/
def lowerAscii (text : List Char) : List Char :=
  text.map Char.toLower

end Text

end StubSync
