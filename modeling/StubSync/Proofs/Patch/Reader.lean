/-
Unified diffs as they are read and applied: one file, one hunk.

A hunk takes its place and its lengths from its header.  A range without lines
names the line that it stands behind, any other range its own first line.
-/
import StubSync.Patch
import StubSync.Text.Decimal

namespace StubSync

namespace Patch

/-- The side of a change that a line of a hunk is on. -/
inductive Mark where
  | context
  | removed
  | added
deriving Repr, DecidableEq

namespace Mark

def char : Mark → Char
  | .context => ' '
  | .removed => '-'
  | .added => '+'

def ofChar? : Char → Option Mark
  | ' ' => some .context
  | '-' => some .removed
  | '+' => some .added
  | _ => none

def isOld : Mark → Bool
  | .added => false
  | _ => true

def isNew : Mark → Bool
  | .removed => false
  | _ => true

def reverse : Mark → Mark
  | .context => .context
  | .removed => .added
  | .added => .removed

/-- What is left of the lengths of both sides behind a line with this mark. -/
def takeFrom? : Mark → Nat → Nat → Option (Nat × Nat)
  | .context, old + 1, new + 1 => some (old, new)
  | .removed, old + 1, new => some (old, new)
  | .added, old, new + 1 => some (old, new)
  | _, _, _ => none

end Mark

/-- A line of a hunk without its mark. -/
structure Entry where
  mark : Mark
  line : Line
deriving Repr, DecidableEq

/-- Where a hunk stands in one of the texts, and how many lines it has there. -/
structure Range where
  start : Nat
  count : Nat
deriving Repr, DecidableEq

structure Hunk where
  oldRange : Range
  newRange : Range
  entries : List Entry
deriving Repr, DecidableEq

/-- A diff of one file. -/
structure Diff where
  oldPath : String
  newPath : String
  hunk : Hunk
deriving Repr, DecidableEq

section Reading

/-- A range that does not tell its length has one line. -/
def readRange? (text : List Char) : Option (Range × List Char) := do
  let (start, rest) ← Decimal.number? text
  match rest with
  | ',' :: rest =>
      let (count, rest) ← Decimal.number? rest
      some (⟨start, count⟩, rest)
  | _ => some (⟨start, 1⟩, rest)

def readRanges? (line : Line) : Option (Range × Range) := do
  let rest ← Text.after? "@@ -".toList line
  let (oldRange, rest) ← readRange? rest
  let rest ← Text.after? " +".toList rest
  let (newRange, rest) ← readRange? rest
  if rest = " @@\n".toList then some (oldRange, newRange) else none

/-- The path that a line names behind `lead`. -/
def readPath? (lead : List Char) (line : Line) : Option String := do
  let rest ← Text.after? lead line
  if rest.getLast? = some '\n' then some (String.ofList rest.dropLast) else none

def readEntry? : Line → Option Entry
  | [] => none
  | c :: line => (Mark.ofChar? c).map fun mark => ⟨mark, line⟩

/-- The note that the line before it has no line feed. -/
def note : Line :=
  "\\ No newline at end of file\n".toList

/-- Lines after which a note stood have lost their line feed. -/
def dropNotes : List Line → List Line
  | [] => []
  | [line] => [line]
  | line :: next :: rest =>
      if next = note then line.dropLast :: dropNotes rest
      else line :: dropNotes (next :: rest)

/-- As many lines as the lengths of both sides tell, and what follows them. -/
def readEntries? : Nat → Nat → List Line → Option (List Entry × List Line)
  | 0, 0, lines => some ([], lines)
  | _, _, [] => none
  | old, new, line :: rest => do
      let entry ← readEntry? line
      let (old, new) ← entry.mark.takeFrom? old new
      let (entries, rest) ← readEntries? old new rest
      some (entry :: entries, rest)

/-- A diff whose one hunk ends the text. -/
def read? (text : String) : Option Diff :=
  match Text.lines text.toList with
  | old :: new :: ranges :: body => do
      let oldPath ← readPath? "--- a/".toList old
      let newPath ← readPath? "+++ b/".toList new
      let (oldRange, newRange) ← readRanges? ranges
      let (entries, rest) ← readEntries? oldRange.count newRange.count (dropNotes body)
      if rest = [] then some ⟨oldPath, newPath, oldRange, newRange, entries⟩ else none
  | _ => none

end Reading

/-- How many lines stand before the range. -/
def Range.before? (range : Range) : Option Nat :=
  if range.count = 0 then some range.start
  else if range.start = 0 then none
  else some (range.start - 1)

namespace Hunk

def oldLines (hunk : Hunk) : List Line :=
  (hunk.entries.filter (·.mark.isOld)).map Entry.line

def newLines (hunk : Hunk) : List Line :=
  (hunk.entries.filter (·.mark.isNew)).map Entry.line

/-- The header counts the lines of both sides. -/
structure IsWellFormed (hunk : Hunk) : Prop where
  oldCount : hunk.oldRange.count =
    hunk.entries.countP (·.mark = .context) + hunk.entries.countP (·.mark = .removed)
  newCount : hunk.newRange.count =
    hunk.entries.countP (·.mark = .context) + hunk.entries.countP (·.mark = .added)

/-- The hunk that takes the change back. -/
def reverse (hunk : Hunk) : Hunk where
  oldRange := hunk.newRange
  newRange := hunk.oldRange
  entries := hunk.entries.map fun entry => { entry with mark := entry.mark.reverse }

/-- Put the new lines in the place of the old ones, which have to be found
where the header says. -/
def applyTo? (hunk : Hunk) (text : String) : Option String := do
  let lines := Text.lines text.toList
  let before ← hunk.oldRange.before?
  let later := lines.drop before
  if before ≤ lines.length ∧ later.take hunk.oldRange.count = hunk.oldLines then
    some (String.ofList
      (lines.take before ++ hunk.newLines ++ later.drop hunk.oldRange.count).flatten)
  else none

/-- The context before the first change. -/
def leading (hunk : Hunk) : List Entry :=
  hunk.entries.takeWhile (·.mark = .context)

/-- The context after the last change, from its end. -/
def trailing (hunk : Hunk) : List Entry :=
  hunk.entries.reverse.takeWhile (·.mark = .context)

end Hunk

/-- The range starts with the first line of a text. -/
def Range.Begins (range : Range) : Prop :=
  range.before? = some 0

/-- The range ends with the last line of a text. -/
def Range.Ends (range : Range) (text : String) : Prop :=
  ∃ before, range.before? = some before ∧
    before + range.count = (Text.lines text.toList).length

/-- One change stands between at most three lines of context on each side;
there are fewer only where both texts begin, or end. -/
structure Hunk.IsFramed (hunk : Hunk) (old new : String) : Prop where
  changes : ∃ entry ∈ hunk.entries, entry.mark ≠ .context
  outside : hunk.entries.countP (·.mark = .context) =
    hunk.leading.length + hunk.trailing.length
  leading_le : hunk.leading.length ≤ 3
  trailing_le : hunk.trailing.length ≤ 3
  begins : hunk.leading.length < 3 → hunk.oldRange.Begins ∧ hunk.newRange.Begins
  ends : hunk.trailing.length < 3 → hunk.oldRange.Ends old ∧ hunk.newRange.Ends new

end Patch

end StubSync
