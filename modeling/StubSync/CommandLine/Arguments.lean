/-
The arguments of the program: what may be given, and what stands for what is
not given.
-/
import StubSync.Hosting.Call
import StubSync.Report.Layout

namespace StubSync

namespace CommandLine

/-- An option that takes a value. -/
inductive Setting where
  | actionLevel
  | repo
  | baseBranch
  | baseCommit
  | token
  | apiUrl
  | indexUrl
  | only
  | exclude
  | concurrency
  | runUrl
  | serverUrl
  | runId
deriving Repr, DecidableEq

namespace Setting

def all : List Setting :=
  [.actionLevel, .repo, .baseBranch, .baseCommit, .token, .apiUrl, .indexUrl, .only, .exclude,
    .concurrency, .runUrl, .serverUrl, .runId]

/-- The name after two hyphens. -/
def name : Setting → String
  | .actionLevel => "action-level"
  | .repo => "repo"
  | .baseBranch => "base-branch"
  | .baseCommit => "base-commit"
  | .token => "token"
  | .apiUrl => "api-url"
  | .indexUrl => "index-url"
  | .only => "only"
  | .exclude => "exclude"
  | .concurrency => "concurrency"
  | .runUrl => "run-url"
  | .serverUrl => "server-url"
  | .runId => "run-id"

def ofName? (text : String) : Option Setting :=
  all.find? fun setting => setting.name == text

/-- The option may be given more than once. -/
def isRepeatable : Setting → Bool
  | .only | .exclude => true
  | _ => false

/-- The environment variable that stands for an option that is not given. -/
def environmentName? : Setting → Option String
  | .repo => some "GITHUB_REPOSITORY"
  | .baseCommit => some "GITHUB_SHA"
  | .token => some "GITHUB_TOKEN"
  | .apiUrl => some "GITHUB_API_URL"
  | .serverUrl => some "GITHUB_SERVER_URL"
  | .runId => some "GITHUB_RUN_ID"
  | _ => none

end Setting

/-- An option that takes no value. -/
inductive Switch where
  | dryRun
  | verbose
  | quiet
  | json
  | diff
  | alertOnFailure
  | help
  | version
deriving Repr, DecidableEq

namespace Switch

def all : List Switch :=
  [.dryRun, .verbose, .quiet, .json, .diff, .alertOnFailure, .help, .version]

def name : Switch → String
  | .dryRun => "dry-run"
  | .verbose => "verbose"
  | .quiet => "quiet"
  | .json => "json"
  | .diff => "diff"
  | .alertOnFailure => "alert-on-failure"
  | .help => "help"
  | .version => "version"

def ofName? (text : String) : Option Switch :=
  all.find? fun switch => switch.name == text

/-- The switch of a letter after one hyphen. -/
def ofLetter? : Char → Option Switch
  | 'n' => some .dryRun
  | 'v' => some .verbose
  | 'q' => some .quiet
  | 'h' => some .help
  | 'V' => some .version
  | _ => none

end Switch

/-- The greatest number of packages that may be processed at once. -/
def concurrencyLimit : Nat := 64

/-- A number from 1 to the limit; a plus may stand before it and blanks around
it. -/
def concurrency? (text : String) : Option Nat :=
  let digits :=
    match Text.trim text.toList with
    | '+' :: rest => rest
    | trimmed => trimmed
  (Decimal.whole? digits).filter fun n => 1 ≤ n && n ≤ concurrencyLimit

end CommandLine

/-- The arguments of the program, with what stands for those not given. -/
structure Arguments where
  root : String := "."
  level : Level := .everything
  repo : Option String := none
  baseBranch : String := "main"
  baseCommit : Option String := none
  token : Option String := none
  apiUrl : String := GitHub.defaultUrl
  indexUrl : String := Index.defaultUrl
  only : List String := []
  exclude : List String := []
  concurrency : Nat := 4
  dryRun : Bool := false
  verbose : Bool := false
  quiet : Bool := false
  json : Bool := false
  diff : Bool := false
  alertOnFailure : Bool := false
  runUrl : Option String := none
  serverUrl : String := "https://github.com"
  runId : Option String := none
deriving Repr, DecidableEq

namespace Arguments

def showProgress (arguments : Arguments) : Bool :=
  !arguments.quiet && !arguments.json

def format (arguments : Arguments) : Format :=
  if arguments.json then .json else if arguments.diff then .diff else .text

def verbosity (arguments : Arguments) : Verbosity :=
  if arguments.quiet then .quiet else if arguments.verbose then .verbose else .normal

/-- The least important messages that are logged. -/
inductive LogLevel where
  | debug
  | info
  | warn
deriving Repr, DecidableEq

def LogLevel.name : LogLevel → String
  | .debug => "DEBUG"
  | .info => "INFO"
  | .warn => "WARN"

def logLevel (arguments : Arguments) : LogLevel :=
  if arguments.verbose then .debug else if arguments.quiet then .warn else .info

end Arguments

end StubSync
