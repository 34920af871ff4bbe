/-
The unified diff of two texts, as one hunk around the lines that differ.

Lines keep their endings, so carriage returns and a missing line feed at the
end of the text survive the application of the patch.
-/
import StubSync.Text.Pieces

namespace StubSync

namespace Patch

abbrev Line := List Char

/-- Lines of context on each side of the change. -/
def contextLimit : Nat := 3

/-- The lines that two lists have in common at their start, and what is left
of each. -/
def commonStart : List Line → List Line → List Line × List Line × List Line
  | a :: left, b :: right =>
      if a = b then
        let (common, left, right) := commonStart left right
        (a :: common, left, right)
      else ([], a :: left, b :: right)
  | left, right => ([], left, right)

/-- Two lists of lines taken apart: what they share at the start, what differs
in each, and what they share at the end. -/
structure Comparison where
  start : List Line
  removed : List Line
  added : List Line
  finish : List Line
deriving Repr, DecidableEq

/-- The longest start is shared first, then the longest end of what is
left. -/
def compare (old new : List Line) : Comparison :=
  let (start, old, new) := commonStart old new
  let (finish, old, new) := commonStart old.reverse new.reverse
  ⟨start, old.reverse, new.reverse, finish.reverse⟩

/-- A line of a hunk; a line without a line feed is followed by a note. -/
def spellLine (mark : Char) (line : Line) : List Char :=
  if line.getLast? = some '\n' then mark :: line
  else mark :: line ++ "\n\\ No newline at end of file\n".toList

def spellLines (mark : Char) (lines : List Line) : List Char :=
  (lines.map (spellLine mark)).flatten

/-- The place of `count` lines that have `before` lines before them. -/
def spellRange (before count : Nat) : String :=
  match count with
  | 0 => s!"{before},0"
  | 1 => s!"{before + 1}"
  | _ => s!"{before + 1},{count}"

/-- The hunk of a comparison. -/
def spellHunk (comparison : Comparison) : List Char :=
  let before := comparison.start.length - contextLimit
  let leading := comparison.start.drop before
  let trailing := comparison.finish.take contextLimit
  let context := leading.length + trailing.length
  let oldRange := spellRange before (context + comparison.removed.length)
  let newRange := spellRange before (context + comparison.added.length)
  s!"@@ -{oldRange} +{newRange} @@\n".toList ++ spellLines ' ' leading ++
    spellLines '-' comparison.removed ++ spellLines '+' comparison.added ++
    spellLines ' ' trailing

/-- The unified diff that turns `old` into `new`; it is empty if they are
equal. -/
def unified (path old new : String) : String :=
  if old = new then ""
  else
    let comparison := compare (Text.lines old.toList) (Text.lines new.toList)
    s!"--- a/{path}\n+++ b/{path}\n" ++ String.ofList (spellHunk comparison)

end Patch

end StubSync
