/-
A session of the program, from its command line to its exit code.

A session speaks to the package index and to the hosting service by requests
over the web, and it asks for the time.  What it shows is collected and given
back with the exit code.
-/
import StubSync.Alert
import StubSync.Checkout
import StubSync.CommandLine.Reader
import StubSync.Hosting.Publishing
import StubSync.Report.View
import StubSync.Settings

namespace StubSync

namespace Session

/-- What a session starts from. -/
structure Start where
  words : List String
  environment : String → Option String
  files : Files
  /-- The output goes to a terminal. -/
  toTerminal : Bool := false

/-- How a session ends: what was shown, and what was noted beside it. -/
structure Finish where
  exitCode : Nat
  output : String := ""
  notes : List String := []
deriving Repr, DecidableEq

def exitSuccess : Nat := 0

/-- The exit code of a run in which a package failed. -/
def exitFailed : Nat := 1

/-- The exit code of a run that could not start. -/
def exitFatal : Nat := 2

inductive Question where
  | web (question : Http.Question)
  | now
deriving Repr

abbrev Reply : Question → Type
  | .web question => Http.Reply question
  | .now => Instant

abbrev Exchange := Interaction Question Reply

def now : Exchange Instant :=
  Interaction.query Question.now

def web {α : Type} (exchange : Http.Exchange α) : Exchange α :=
  exchange.interpret fun question => Interaction.query (Question.web question)

/-- A conversation with the repository over the web; the open proposals that
are known are handed on. -/
def host {α : Type} (config : GitHub) (policy : RetryPolicy) (exchange : Hosting.Exchange α)
    (known : GitHub.Known) : Http.Exchange (α × GitHub.Known) :=
  (exchange.interpretFrom (GitHub.asHosting config policy) known).interpret config.overWeb

/-- How the questions of a run are answered over the web. -/
def answer (settings : Settings) : (question : Run.Question) → GitHub.Known →
    Http.Exchange (Run.Reply question × GitHub.Known)
  | .fetch distribution, known => do
      let client : Index.Client := { url := settings.indexUrl }
      return (← client.fetch distribution, known)
  | .host question, known =>
      (GitHub.asHosting settings.hosting {} question known).interpret settings.hosting.overWeb

/-- Escape codes are shown if they are forced, and on a terminal unless they
are refused. -/
def showsEscapes (start : Start) : Bool :=
  let isOn? := fun name => (start.environment name).map (· != "0")
  if isOn? "CLICOLOR_FORCE" = some true then true
  else if (isOn? "NO_COLOR").isSome then false
  else (isOn? "CLICOLOR").getD true && start.toTerminal

def layoutOf (start : Start) (arguments : Arguments) : Layout where
  format := arguments.format
  verbosity := arguments.verbosity
  look := .rich (showsEscapes start)

/-- What ends a session that cannot start. -/
def fatal (message : String) : Finish :=
  { exitCode := exitFatal, notes := ["Error: " ++ message] }

/-- An error about metadata with its causes; the system's reason is one. -/
def withCauses (error : MetadataError) : String :=
  match error with
  | .unreadable _ fault => error.message ++ ": " ++ fault.message
  | _ => error.message

/-- Issues are filed if that was asked for, and never in a dry run. -/
def filesIssues (settings : Settings) : Bool :=
  settings.alertOnFailure && !settings.run.dryRun

/-- File an issue; an issue that cannot be filed changes nothing else. -/
def file (settings : Settings) (alert : Hosting.Exchange (Except HostingError String)) :
    Exchange (List String) := do
  if filesIssues settings then
    match ← web (host settings.hosting {} alert none) with
    | (.ok url, _) => return ["Filed alert: " ++ url]
    | (.error _, _) => return []
  else return []

/-- A run that was broken off before any package was processed. -/
def abort (settings : Settings) (error : MetadataError) : Exchange Finish := do
  let today ← now
  let _ ← file settings (Alert.aboutAbort today.day error.message settings.runUrl)
  return fatal ("loading stub metadata: " ++ withCauses error)

/-- A run over packages, and the report of it.

The program works on several packages at a time, and which of them goes on next
is not settled.  A session takes one of the orders that the pool of
`Proofs/Run/Pool` has: each package from its start to its end, in the order of
the listing (`Run.Pool.start_reaches_entries`).  All orders of the pool end with
the same entries, as is proved there, so the report does not depend on the
choice; the order of the requests does. -/
def complete (settings : Settings) (packages : List Package) : Exchange Report := do
  let startedAt ← now
  let (entries, _) ←
    web ((Run.entries settings.run packages).interpretFrom (answer settings) none)
  return Run.report settings.run startedAt (← now) entries

/-- Show a report, and file an issue if a package failed. -/
def conclude (layout : Layout) (settings : Settings) (report : Report) : Exchange Finish := do
  let output := layout.showReport report
  if report.isSuccess then return { exitCode := exitSuccess, output }
  else
    let notes ← file settings (Alert.aboutReport report settings.runUrl)
    return { exitCode := exitFailed, output, notes }

/-- A session whose settings are valid. -/
def runWith (layout : Layout) (files : Files) (settings : Settings) : Exchange Finish := do
  let checkout : Checkout := ⟨files, settings.root, settings.baseCommit⟩
  match checkout.packages with
  | .error error => abort settings error
  | .ok packages => conclude layout settings (← complete settings packages)

/-- A session whose command line is valid. -/
def runArguments (start : Start) (arguments : Arguments) : Exchange Finish :=
  match Settings.ofArguments arguments start.files.isDirectory with
  | .error error => return fatal error.message
  | .ok settings =>
      match settings.hosting.checkToken with
      | .error error => return fatal error.message
      | .ok () => runWith (layoutOf start arguments) start.files settings

def versionText : String := "stubsabot 0.1.0\n"

def helpText : String :=
  "Keeps type-stub packages in sync with their upstream releases\n\n" ++
    "Usage: stubsabot [OPTIONS] [REPO_ROOT]\n"

/-- The end of a session that is over with its command line. -/
def usage (error : UsageError) : Finish :=
  match error with
  | .displayHelp => { exitCode := exitSuccess, output := helpText }
  | .displayVersion => { exitCode := exitSuccess, output := versionText }
  | .unknownArgument => refused "unexpected argument"
  | .tooManyValues => refused "a value for an option that takes none"
  | .invalidValue => refused "a missing or invalid value for an option"
  | .argumentConflict => refused "options that cannot be given together"
  | .valueValidation => refused "a value out of range for an option"
where
  refused (message : String) : Finish :=
    { exitCode := exitFatal, notes := ["error: " ++ message] }

/-- A session from its start to its end. -/
def run (start : Start) : Exchange Finish :=
  match CommandLine.read start.words start.environment with
  | .error error => return usage error
  | .ok arguments => runArguments start arguments

end Session

end StubSync
