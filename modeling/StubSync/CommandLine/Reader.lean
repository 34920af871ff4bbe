/-
Reading the command line.

Words are read from left to right.  The value of an option, and the path of
the checkout, are checked only when the next option or path comes or the line
ends, so of two errors a later word that is no option at all is reported
first.
-/
import StubSync.CommandLine.Arguments

namespace StubSync

/-- Why a command line is not carried out. -/
inductive UsageError where
  | displayHelp
  | displayVersion
  | unknownArgument
  | tooManyValues
  | invalidValue
  | argumentConflict
  | valueValidation
deriving Repr, DecidableEq

namespace CommandLine

/-- What was given last and is not checked yet. -/
inductive Pending where
  | setting (setting : Setting) (value : Option String)
  | root (path : String)
deriving Repr, DecidableEq

/-- What has been read of a command line. -/
structure Given where
  values : List (Setting × String) := []
  switches : List Switch := []
  root : Option String := none
  pending : Option Pending := none
  /-- Every further word is a path. -/
  onlyPaths : Bool := false
deriving Repr, DecidableEq

namespace Given

/-- The last value of an option that was given. -/
def value? (given : Given) (setting : Setting) : Option String :=
  given.values.reverse.lookup setting

def valuesOf (given : Given) (setting : Setting) : List String :=
  (given.values.filter fun value => value.1 == setting).map Prod.snd

/-- The value is one that the option takes. -/
def checkValue (setting : Setting) (value : String) : Except UsageError Unit :=
  match setting with
  | .actionLevel => if (Level.ofName? value).isSome then .ok () else .error .invalidValue
  | .concurrency => if (concurrency? value).isSome then .ok () else .error .valueValidation
  | _ => .ok ()

/-- Take the value of an option. -/
def store (given : Given) (setting : Setting) (value : String) : Except UsageError Given := do
  if !setting.isRepeatable && (given.value? setting).isSome then throw .argumentConflict
  checkValue setting value
  return { given with values := given.values ++ [(setting, value)] }

/-- Check what was given last. -/
def settle (given : Given) : Except UsageError Given :=
  let settled := { given with pending := none }
  match given.pending with
  | none => .ok settled
  | some (.setting _ none) => .error .invalidValue
  | some (.setting setting (some value)) => settled.store setting value
  | some (.root path) =>
      if path.isEmpty then .error .invalidValue else .ok { settled with root := some path }

def flip (given : Given) (switch : Switch) : Except UsageError Given := do
  let given ← given.settle
  match switch with
  | .help => throw .displayHelp
  | .version => throw .displayVersion
  | switch =>
      if given.switches.contains switch then throw .argumentConflict
      return { given with switches := given.switches ++ [switch] }

/-- A word after two hyphens. -/
def readLong (given : Given) (word : List Char) : Except UsageError Given := do
  let (name, value) :=
    match Text.cutAt? '=' word with
    | some (name, value) => (String.ofList name, some (String.ofList value))
    | none => (String.ofList word, none)
  match Setting.ofName? name, Switch.ofName? name with
  | some setting, _ => do
      let given ← given.settle
      match value with
      | some value => given.store setting value
      | none => return { given with pending := some (.setting setting none) }
  | none, some switch => if value.isSome then throw .tooManyValues else given.flip switch
  | none, none => throw .unknownArgument

/-- A word of letters after one hyphen. -/
def readLetters (given : Given) : List Char → Except UsageError Given
  | [] => .ok given
  | letter :: others => do
      match Switch.ofLetter? letter with
      | some switch => (← given.flip switch).readLetters others
      | none => throw .unknownArgument

/-- The path of the checkout, of which there is one. -/
def readPath (given : Given) (path : String) : Except UsageError Given := do
  let isKnown :=
    match given.pending with
    | some (.root _) => true
    | _ => given.root.isSome
  if isKnown then throw .unknownArgument
  let given ← given.settle
  return { given with pending := some (.root path) }

/-- A word that is no option: the value that an option waits for, or a
path. -/
def readPlain (given : Given) (word : String) : Except UsageError Given :=
  match given.pending with
  | some (.setting setting none) =>
      .ok { given with pending := some (.setting setting (some word)) }
  | _ => given.readPath word

def read (given : Given) (word : String) : Except UsageError Given :=
  if given.onlyPaths then given.readPath word
  else
    match word.toList with
    | ['-', '-'] => .ok { given with onlyPaths := true }
    | '-' :: '-' :: rest => given.readLong rest
    | '-' :: letter :: rest => given.readLetters (letter :: rest)
    | _ => given.readPlain word

/-- The value of an option: given, from the environment, or none. -/
def valueIn? (given : Given) (environment : String → Option String) (setting : Setting) :
    Option String :=
  given.value? setting <|> setting.environmentName?.bind environment

def toArguments (given : Given) (environment : String → Option String) : Arguments :=
  let base : Arguments := {}
  let value? := given.valueIn? environment
  let isOn := given.switches.contains
  { root := given.root.getD base.root
    level := ((value? .actionLevel).bind Level.ofName?).getD base.level
    repo := value? .repo
    baseBranch := (value? .baseBranch).getD base.baseBranch
    baseCommit := value? .baseCommit
    token := value? .token
    apiUrl := (value? .apiUrl).getD base.apiUrl
    indexUrl := (value? .indexUrl).getD base.indexUrl
    only := given.valuesOf .only
    exclude := given.valuesOf .exclude
    concurrency := ((value? .concurrency).bind concurrency?).getD base.concurrency
    dryRun := isOn .dryRun
    verbose := isOn .verbose
    quiet := isOn .quiet
    json := isOn .json
    diff := isOn .diff
    alertOnFailure := isOn .alertOnFailure
    runUrl := value? .runUrl
    serverUrl := (value? .serverUrl).getD base.serverUrl
    runId := value? .runId }

end Given

/-- The arguments that the words of a command line give, an environment
variable standing for an option that is not given.  A run cannot be both
verbose and quiet. -/
def read (words : List String) (environment : String → Option String) :
    Except UsageError Arguments := do
  let given ← words.foldlM Given.read {}
  let given ← given.settle
  if given.switches.contains .verbose && given.switches.contains .quiet then
    throw .argumentConflict
  return given.toArguments environment

end CommandLine

end StubSync
