/-
Issues about runs that went wrong.
-/
import StubSync.Hosting.Basic
import StubSync.Report.Basic

namespace StubSync

namespace Alert

/-- The title of the issue about a run. -/
def title (day : Day) : String :=
  s!"Stubsabot run failed on {day}"

/-- Where the log of the run is. -/
def logLink (runUrl : Option String) : String :=
  match runUrl with
  | some url => s!"\nSee the run log: {url}\n"
  | none => "\nNo run log link is available.\n"

/-- What is said about a run in which packages failed. -/
def failureBody (report : Report) (runUrl : Option String) : String :=
  let lead := s!"Stubsabot failed on {report.failedCount} of {report.entries.length} package(s) "
  let level := s!"(action level: {report.level}).\n\n"
  let lines := report.failures.map fun entry => s!"- `{entry.package}`: {entry.outcome}\n"
  lead ++ level ++ "".intercalate lines ++ logLink runUrl

/-- What is said about a run that was broken off. -/
def abortBody (message : String) (runUrl : Option String) : String :=
  s!"The run aborted: {message}\n" ++ logLink runUrl

/-- File an issue about a run in which packages failed, dated to its start. -/
def aboutReport (report : Report) (runUrl : Option String) :
    Hosting.Exchange (Except HostingError String) :=
  Hosting.issue (title report.startedAt.day) (failureBody report runUrl)

/-- File an issue about a run that was broken off on a day. -/
def aboutAbort (day : Day) (message : String) (runUrl : Option String) :
    Hosting.Exchange (Except HostingError String) :=
  Hosting.issue (title day) (abortBody message runUrl)

end Alert

end StubSync
