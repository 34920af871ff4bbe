/-
A report as text: a section for each kind of outcome, and a summary.

A line is laid out once for all looks.  Its parts carry their styles, and it is
shown with the escape codes of these styles or without them (`Styled.render`);
the look itself settles nothing but the arrow between two versions.  What a line
says without styles is put down in words of its own in `Proofs/Report/Wording`,
and every look of it is proved to say that.
-/
import StubSync.Report.Basic
import StubSync.Report.Layout
import StubSync.Text.Styled

namespace StubSync

namespace Report

/-- The narrowest column of package names. -/
def nameWidth : Nat := 20

/-- What kind of change an action makes, in its style. -/
def changeLabel : Action → Styled
  | .update current target =>
      if current.crossesMajor target then .ofText .boldRed "major"
      else .ofText .green "minor"
  | .markObsolete _ => .ofText .yellow "obsolete"
  | .rest _ | .review _ => ""

/-- The versions before and after a change. -/
def changeEnds (entry : Entry) : Action → String × String
  | .update current target => (toString current, toString target)
  | .markObsolete since => (entry.current, s!"obsolete since {since}")
  | action => (entry.current, toString action)

/-- The name, filled up with blanks. -/
def padName (width : Nat) (name : String) : String :=
  name ++ String.ofList (List.replicate (width - name.length) ' ')

/-- The line of one package, without its end. -/
def lineOf (look : Look) (width : Nat) (entry : Entry) : Styled :=
  let name := padName width entry.package
  match entry.outcome with
  | .proposed action _ url =>
      let (before, after) := changeEnds entry action
      let link :=
        match url with
        | some url => "  " ++ url
        | none => ""
      .plain ("  " ++ name ++ " ") ++ .ofText .dimmed before ++ " " ++
        .ofText .dimmed look.arrow ++ " " ++ .ofText .boldWhite after ++ " [" ++
        changeLabel action ++ "]" ++ .ofText .dimmed link
  | .review reason =>
      let latest :=
        match entry.latest with
        | some version => s!" (latest {version})"
        | none => ""
      .plain ("  " ++ name ++ " ") ++ .ofText .yellow reason ++ .ofText .dimmed latest
  | .failed error => .plain ("  " ++ name ++ " ") ++ .ofText .red error
  | .skipped _ reason =>
      .plain "  " ++ .ofText .dimmed name ++ " " ++ .ofText .dimmed s!"({reason})"

/-- The entry has a line. -/
def isListed (verbosity : Verbosity) (entry : Entry) : Bool :=
  match entry.outcome with
  | .failed _ | .review _ => true
  | .proposed .. => verbosity != .quiet
  | .skipped _ reason => verbosity == .verbose && reason != .filtered

/-- The mark of a dry run, which stands before titles. -/
def dryRunMark (report : Report) : Styled :=
  if report.dryRun then .ofText .cyan "(dry-run)" ++ " " else ""

/-- A title, a line for each entry, and an empty line; nothing if there are no
entries. -/
def outcomeSection (look : Look) (width : Nat) (title : Styled) (entries : List Entry) :
    List Styled :=
  if entries.isEmpty then []
  else .styled .bold title :: entries.map (lineOf look width) ++ [.plain ""]

/-- The lines before the summary. -/
def sections (look : Look) (verbosity : Verbosity) (report : Report) : List Styled :=
  let listed := report.entries.filter (isListed verbosity)
  let width := (listed.map fun entry => entry.package.utf8ByteSize).foldl max nameWidth
  let part := fun title (kind : Outcome → Bool) =>
    outcomeSection look width title (listed.filter fun entry => kind entry.outcome)
  part (report.dryRunMark ++ "Proposed:") Outcome.isProposed ++
    part "Needs review:" Outcome.isReview ++ part "Failed:" Outcome.isFailed ++
    part "Skipped:" Outcome.isSkipped

/-- The line with the number of outcomes of each kind. -/
def summaryLine (report : Report) : Styled :=
  let failed := toString report.failedCount
  report.dryRunMark ++ .ofText .green (toString report.proposedCount) ++ " proposed, " ++
    .ofText .dimmed (toString report.skippedCount) ++ " skipped, " ++
    .ofText .yellow (toString report.reviewCount) ++ " need review, " ++
    .ofText (if 0 < report.failedCount then .boldRed else .dimmed) failed ++ " failed " ++
    .ofText .dimmed s!"(action level: {report.level})"

/-- Lines as they are shown, each with its end. -/
def showLines (look : Look) (lines : List Styled) : String :=
  String.ofList (lines.flatMap fun line => line.render look.escapes ++ ['\n'])

def toText (look : Look) (verbosity : Verbosity) (report : Report) : String :=
  showLines look (report.sections look verbosity ++ [report.summaryLine])

def summaryText (look : Look) (report : Report) : String :=
  showLines look [report.summaryLine]

def entryText (look : Look) (entry : Entry) : String :=
  showLines look [lineOf look entry.package.utf8ByteSize entry]

end Report

end StubSync
