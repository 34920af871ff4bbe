/-
Texts in quotes, with escapes for what cannot be seen.
-/
import StubSync.Text.Invisible
import StubSync.Text.Mark

namespace StubSync

namespace Quoted

/-- The code point of a character in hexadecimal digits. -/
def codeEscape (c : Char) : List Char :=
  ['\\', 'u', '\x7b'] ++ Nat.toDigits 16 c.toNat ++ ['\x7d']

def escape (c : Char) : List Char :=
  match c with
  | '"' => ['\\', '"']
  | '\\' => ['\\', '\\']
  | '\t' => ['\\', 't']
  | '\n' => ['\\', 'n']
  | '\r' => ['\\', 'r']
  | c =>
      if c.toNat = 0 then ['\\', '0']
      else if Text.isInvisible c || Text.isMark c then codeEscape c
      else [c]

def quote (content : String) : String :=
  String.ofList ('"' :: content.toList.flatMap escape ++ ['"'])

end Quoted

end StubSync
