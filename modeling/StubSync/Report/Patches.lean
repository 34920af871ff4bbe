/-
A report as one patch of all proposed changes.
-/
import StubSync.Report.Basic

namespace StubSync

namespace Report

/-- The diff of a proposed change, with a line end after it. -/
def entryPatch (entry : Entry) : String :=
  match entry.outcome, entry.diff with
  | .proposed .., some diff => if diff.endsWith "\n" then diff else diff ++ "\n"
  | _, _ => ""

/-- A line that readers of patches pass over. -/
def patchSummary (report : Report) : String :=
  let verb := if report.dryRun then "would be proposed" else "proposed"
  s!"# {report.proposedCount} change(s) {verb}, {report.reviewCount} need review, " ++
    s!"{report.failedCount} failed\n"

def toPatch (report : Report) : String :=
  "".intercalate (report.entries.map entryPatch) ++ report.patchSummary

end Report

end StubSync
