/-
Blank characters, and texts with the blank characters at their ends removed.

A character is blank when it has the Unicode property White_Space, so a
no-break space is blank and a zero-width space is not.
-/

namespace StubSync

namespace Text

/-- The code points with the property White_Space, as inclusive ranges. -/
def blankRanges : List (Nat × Nat) :=
  [(0x09, 0x0D), (0x20, 0x20), (0x85, 0x85), (0xA0, 0xA0), (0x1680, 0x1680),
    (0x2000, 0x200A), (0x2028, 0x2029), (0x202F, 0x202F), (0x205F, 0x205F),
    (0x3000, 0x3000)]

def isBlank (c : Char) : Bool :=
  blankRanges.any fun range => range.1 ≤ c.toNat && c.toNat ≤ range.2

def trimStart (text : List Char) : List Char :=
  text.dropWhile isBlank

def trimEnd (text : List Char) : List Char :=
  (text.reverse.dropWhile isBlank).reverse

def trim (text : List Char) : List Char :=
  trimEnd (trimStart text)

/-- The text without the blank characters at both of its ends. -/
def trimmed (text : String) : String :=
  String.ofList (trim text.toList)

/-- A text of blank characters only, the empty text included. -/
def isBlankText (text : String) : Bool :=
  text.toList.all isBlank

end Text

end StubSync
