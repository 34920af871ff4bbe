/-
The application of a diff to the file that it is for.

A line feed in a path would break the lines that name it, so the hunk of a diff
is looked for behind the two lines that name the path that is known.
-/
import StubSync.Proofs.Patch.RoundTrip

namespace StubSync

namespace Patch

/-- The two lines of a diff that name its file. -/
def header (path : String) : List Char :=
  pathLine "--- a/".toList path ++ pathLine "+++ b/".toList path

/-- The one hunk of some lines, which ends them. -/
def readHunk? : List Line → Option Hunk
  | [] => none
  | ranges :: body => do
      let (oldRange, newRange) ← readRanges? ranges
      let (entries, rest) ← readEntries? oldRange.count newRange.count (dropNotes body)
      if rest = [] then some ⟨oldRange, newRange, entries⟩ else none

/-- The hunk of a diff of the file at a path. -/
def hunkAt? (path diff : String) : Option Hunk :=
  (Text.after? (header path) diff.toList).bind fun rest => readHunk? (Text.lines rest)

/-- Apply a diff of the file at a path to its text.  An empty diff changes
nothing. -/
def patched? (path diff text : String) : Option String :=
  if diff = "" then some text else (hunkAt? path diff).bind fun hunk => hunk.applyTo? text

variable {comparison : Comparison} {path old new : String}

theorem readHunk?_lines (hof : comparison.IsOf old new) :
    readHunk? (Text.lines (spellHunk comparison)) = some comparison.hunk := by
  simp only [lines_spellHunk hof, readHunk?, readRanges?_hunk, readEntries?_hunk,
    Option.bind_eq_bind, Option.bind_some, if_true]
  rfl

theorem hunkAt?_unified (hne : old ≠ new)
    (hcomparison : comparison = compare (Text.lines old.toList) (Text.lines new.toList)) :
    hunkAt? path (unified path old new) = some comparison.hunk := by
  have hof : comparison.IsOf old new := hcomparison ▸ Comparison.compare_isOf old new
  rw [hunkAt?, toList_unified hne, ← hcomparison, ← List.append_assoc, ← header,
    Text.after?_append, Option.bind_some, readHunk?_lines hof]

/-- The diff of two texts turns the old one into the new one. -/
theorem patched?_unified (path old new : String) :
    patched? path (unified path old new) old = some new := by
  by_cases heq : old = new
  · rw [patched?, if_pos (unified_eq_empty_iff.2 heq), heq]
  · rw [patched?, if_neg (mt unified_eq_empty_iff.1 heq), hunkAt?_unified heq rfl, Option.bind_some]
    exact (Comparison.compare_isOf old new).applyTo?_hunk

end Patch

end StubSync
