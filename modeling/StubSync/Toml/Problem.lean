/-
Problems of a TOML document, and their places in it.
-/
import StubSync.Toml.Text

namespace StubSync

namespace Toml

/-- Why a text is no document. -/
structure Problem where
  /-- The number of characters from the place of the problem on. -/
  left : Nat
  reason : String
deriving Repr, DecidableEq

namespace Problem

/-- The problem at the place before the rest `text`. -/
def before (text : List Char) (reason : String) : Problem :=
  ⟨text.length, reason⟩

/-- The line that holds a place: its number, how far it goes before the place,
and all of it.  The place after the last character is on that character's
line. -/
def locate (text : List Char) (place : Nat) : Nat × Nat × List Char :=
  let last := min place (text.length - 1)
  let before := text.take last
  let start := (before.reverse.takeWhile (· != '\n')).reverse
  let after := (text.drop last).takeWhile (· != '\n')
  (before.count '\n' + 1, start.length + (place - last), start ++ after)

/-- The problem with the line that it is in, and a mark below its place. -/
def describe (problem : Problem) (source : String) : String :=
  let text := source.toList
  let (number, column, line) := locate text (text.length - problem.left)
  let blanks := fun count => String.ofList (List.replicate count ' ')
  let margin := blanks ((toString number).length + 1) ++ "|"
  s!"TOML parse error at line {number}, column {column + 1}\n" ++
    margin ++ s!"\n{number} | " ++ String.ofList line ++ "\n" ++
    margin ++ blanks (column + 1) ++ s!"^\n{problem.reason}\n"

end Problem

/-- What has been read from `text`, or else a problem at its place. -/
def expecting {α : Type} (text : List Char) (reason : String) : Option α → Except Problem α
  | some read => .ok read
  | none => .error (.before text reason)

/-- A text of several lines whose three closing marks are missing. -/
def isLeftOpen (mark : Char) (escaped : Bool) : List Char → Bool
  | [] => true
  | c :: rest =>
      if escaped then isLeftOpen mark false rest
      else if (closing? mark (c :: rest)).isSome then false
      else isLeftOpen mark (mark == '"' && c == '\\') rest

/-- What is wrong with a text that cannot be read. -/
def textProblem (text : List Char) : Problem :=
  match text with
  | '"' :: '"' :: '"' :: rest =>
      if isLeftOpen '"' false rest then
        .before [] "invalid multi-line basic string, expected `\"`"
      else .before text "invalid multi-line basic string"
  | '\'' :: '\'' :: '\'' :: rest =>
      if isLeftOpen '\'' false rest then
        .before [] "invalid multi-line literal string, expected `'`"
      else .before text "invalid multi-line literal string"
  | _ => .before text "invalid string"

end Toml

end StubSync
