/-
A report as a JSON document for other programs.
-/
import StubSync.Json.Printer
import StubSync.Report.Encoding
import StubSync.Report.Layout

namespace StubSync

namespace Report

/-- Packages that were left out are shown to those who want to know all. -/
def isShown (verbosity : Verbosity) (entry : Entry) : Bool :=
  verbosity == .verbose || !entry.outcome.isFiltered

/-- Diffs are shown to those who want to know all. -/
def entryJson (verbosity : Verbosity) (entry : Entry) : Json :=
  (if verbosity = .verbose then entry else { entry with diff := none }).toJson

def summaryJson (report : Report) : Json :=
  .object [("proposed", .natural report.proposedCount), ("skipped", .natural report.skippedCount),
    ("needs_review", .natural report.reviewCount), ("failed", .natural report.failedCount)]

def documentJson (verbosity : Verbosity) (report : Report) : Json :=
  Json.ofFields [("action_level", some report.level.toJson),
    ("dry_run", some (.flag report.dryRun)), ("success", some (.flag report.isSuccess)),
    ("started_at", some report.startedAt.toJson),
    ("finished_at", report.finishedAt.map Instant.toJson),
    ("summary", some report.summaryJson),
    ("packages", some (.list
      ((report.entries.filter (isShown verbosity)).map (entryJson verbosity))))]

/-- A document with a line end after it. -/
def showDocument (document : Json) : String :=
  document.pretty ++ "\n"

end Report

end StubSync
