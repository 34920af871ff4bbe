/-
The settings of a run: its arguments, checked.
-/
import StubSync.CommandLine.Arguments
import StubSync.Run

namespace StubSync

inductive SettingsError where
  | missingToken
  | missingRepository
  | invalidRepository (value : String)
  | invalidUrl (option value : String)
  | invalidPath (path message : String)
  | conflictingOptions (message : String)
deriving Repr, DecidableEq

def SettingsError.message : SettingsError → String
  | .missingToken => "missing hosting API token: set GITHUB_TOKEN"
  | .missingRepository => "missing target repository: pass --repo or set GITHUB_REPOSITORY"
  | .invalidRepository value => s!"invalid repository '{value}': expected 'owner/name'"
  | .invalidUrl option value => s!"invalid URL '{value}' for {option}"
  | .invalidPath path message => s!"invalid path '{path}': {message}"
  | .conflictingOptions message => s!"conflicting options: {message}"

structure Settings where
  root : String
  baseCommit : Option String
  indexUrl : String
  run : Run.Config
  hosting : GitHub
  alertOnFailure : Bool
  /-- Where the log of the run is. -/
  runUrl : Option String
deriving Repr, DecidableEq

namespace Settings

/-- A text without its blank ends, if anything is left of it. -/
def meaningful? (text : Option String) : Option String :=
  (text.map Text.trimmed).filter fun trimmed => !trimmed.isEmpty

/-- An owner and a name with one slash between them, and no blank. -/
def isRepository (value : String) : Bool :=
  match Text.cutAt? '/' value.toList with
  | some (owner, name) =>
      !owner.isEmpty && !name.isEmpty && !name.contains '/' && !value.toList.contains ' '
  | none => false

/-- What follows the scheme of a web address. -/
def afterScheme? (value : List Char) : Option (List Char) :=
  Text.after? "https://".toList value <|> Text.after? "http://".toList value

/-- A web address with something after its scheme. -/
def isUrl (value : String) : Bool :=
  match afterScheme? value.toList with
  | some (c :: _) => c != '/'
  | _ => false

def checkUrl (option value : String) : Except SettingsError Unit :=
  if isUrl value then .ok () else .error (.invalidUrl option value)

/-- The names that are both to be processed and to be left out. -/
def overlap (arguments : Arguments) : List String :=
  arguments.only.filter arguments.exclude.contains

/-- Where the log of the run is: as given, or derived from the number of the
run. -/
def runUrlOf (arguments : Arguments) (repository : String) : Option String :=
  arguments.runUrl <|> arguments.runId.map fun runId =>
    Text.dropTrailing '/' arguments.serverUrl ++ s!"/{repository}/actions/runs/{runId}"

/-- The settings that arguments give; `isDirectory` tells which paths are
directories.  The first check that fails decides about the error. -/
def ofArguments (arguments : Arguments) (isDirectory : String → Bool) :
    Except SettingsError Settings := do
  let some token := meaningful? arguments.token | throw .missingToken
  let some repository := meaningful? arguments.repo | throw .missingRepository
  if !isRepository repository then throw (.invalidRepository repository)
  checkUrl "--api-url" arguments.apiUrl
  checkUrl "--index-url" arguments.indexUrl
  match arguments.runUrl with
  | some url => checkUrl "--run-url" url
  | none => pure ()
  if !isDirectory arguments.root then
    throw (.invalidPath arguments.root "not a directory")
  if !(overlap arguments).isEmpty then
    let names := ", ".intercalate (overlap arguments)
    throw (.conflictingOptions s!"packages both in --only and --exclude: {names}")
  return {
    root := arguments.root
    baseCommit := arguments.baseCommit.filter fun commit => !Text.isBlankText commit
    indexUrl := arguments.indexUrl
    run := {
      level := arguments.level
      dryRun := arguments.dryRun
      only := arguments.only
      exclude := arguments.exclude
      concurrency := arguments.concurrency
      showProgress := arguments.showProgress }
    hosting := {
      apiUrl := arguments.apiUrl
      repository
      token
      baseBranch := arguments.baseBranch }
    alertOnFailure := arguments.alertOnFailure
    runUrl := runUrlOf arguments repository }

end Settings

end StubSync
