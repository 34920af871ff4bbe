/-
Texts with styles, shown with or without the escape codes of a terminal.
-/

namespace StubSync

/-- The codes that switch a style on. -/
abbrev Style := List Nat

namespace Style

def bold : Style := [1]

def dimmed : Style := [2]

def red : Style := [31]

def green : Style := [32]

def yellow : Style := [33]

def cyan : Style := [36]

def boldRed : Style := [1, 31]

def boldWhite : Style := [1, 97]

/-- The character that starts an escape code. -/
def escapeChar : Char := Char.ofNat 0x1B

/-- The escape code that switches the style on. -/
def switchOn (style : Style) : List Char :=
  escapeChar :: '[' :: (";".intercalate (style.map toString)).toList ++ ['m']

/-- The escape code that switches every style off. -/
def switchOff : List Char :=
  [escapeChar, '[', '0', 'm']

/-- The text with the style switched on again wherever all styles have been
switched off. -/
def reopen (style : Style) : List Char → List Char
  | [] => []
  | c :: '[' :: '0' :: 'm' :: rest =>
      if c = escapeChar then switchOff ++ switchOn style ++ reopen style rest
      else c :: reopen style ('[' :: '0' :: 'm' :: rest)
  | c :: rest => c :: reopen style rest

def wrap (style : Style) (text : List Char) : List Char :=
  switchOn style ++ reopen style text ++ switchOff

end Style

/-- A text of which parts have styles, which may be within each other. -/
inductive Styled where
  | plain (content : String)
  | styled (style : Style) (inner : Styled)
  | append (left right : Styled)
deriving Repr, DecidableEq

namespace Styled

instance : Append Styled := ⟨append⟩

instance : Coe String Styled := ⟨plain⟩

/-- A text in one style. -/
def ofText (style : Style) (content : String) : Styled :=
  .styled style (.plain content)

/-- The characters that are shown, among escape codes if there shall be
some. -/
def render (escapes : Bool) : Styled → List Char
  | .plain content => content.toList
  | .styled style inner =>
      if escapes then style.wrap (inner.render escapes) else inner.render escapes
  | .append left right => left.render escapes ++ right.render escapes

end Styled

end StubSync
