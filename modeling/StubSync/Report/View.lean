/-
Reports in the form that was asked for.
-/
import StubSync.Report.Document
import StubSync.Report.Patches
import StubSync.Report.Text

namespace StubSync

namespace Layout

/-- The whole report. -/
def showReport (layout : Layout) (report : Report) : String :=
  match layout.format with
  | .text => report.toText layout.look layout.verbosity
  | .json => Report.showDocument (report.documentJson layout.verbosity)
  | .diff => report.toPatch

def showSummary (layout : Layout) (report : Report) : String :=
  match layout.format with
  | .text => report.summaryText layout.look
  | .json => Report.showDocument report.summaryJson
  | .diff => report.patchSummary

/-- One entry, listed or not. -/
def showEntry (layout : Layout) (entry : Entry) : String :=
  match layout.format with
  | .text => Report.entryText layout.look entry
  | .json => Report.showDocument (Report.entryJson layout.verbosity entry)
  | .diff => Report.entryPatch entry

end Layout

end StubSync
