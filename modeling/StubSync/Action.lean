/-
What a package needs, and how severe it is.
-/
import StubSync.Level
import StubSync.Version.Printer

namespace StubSync

/-- Why a package needs nothing. -/
inductive Rest where
  | alreadyObsolete
  | noLongerUpdated
  | upToDate
  | noStableRelease
deriving Repr, DecidableEq

namespace Rest

def all : List Rest :=
  [.alreadyObsolete, .noLongerUpdated, .upToDate, .noStableRelease]

def name : Rest → String
  | .alreadyObsolete => "already_obsolete"
  | .noLongerUpdated => "no_longer_updated"
  | .upToDate => "up_to_date"
  | .noStableRelease => "no_stable_release"

def ofName? (text : String) : Option Rest :=
  all.find? fun rest => rest.name == text

instance : ToString Rest where
  toString
    | .alreadyObsolete => "already marked obsolete"
    | .noLongerUpdated => "no longer updated"
    | .upToDate => "up to date"
    | .noStableRelease => "no stable release"

end Rest

/-- The verdict on one package. -/
inductive Action where
  | rest (reason : Rest)
  | update (current target : Version)
  | markObsolete (since : Version)
  | review (reason : String)
deriving Repr, DecidableEq

/-- What a run must permit before an action may become a proposal. -/
inductive Severity where
  | informational
  | requires (level : Level)
deriving Repr, DecidableEq

def Severity.allowedAt (severity : Severity) (level : Level) : Bool :=
  match severity with
  | .informational => true
  | .requires required => level.permits required

def Severity.label : Severity → String
  | .informational => "informational"
  | .requires level => level.name

namespace Action

/-- The one table of severities: a step across a major version and an
obsolescence mark need the most permissive level. -/
def severity : Action → Severity
  | .rest _ | .review _ => .informational
  | .update current target =>
      if current.crossesMajor target then .requires .everything
      else .requires .newReleases
  | .markObsolete _ => .requires .everything

/-- The action changes metadata. -/
def isProposable : Action → Bool
  | .update .. | .markObsolete _ => true
  | .rest _ | .review _ => false

/-- The short name of the action in branches and keys. -/
def kind : Action → String
  | .rest _ => "none"
  | .update .. => "bump"
  | .markObsolete _ => "obsolete"
  | .review _ => "review"

/-- The version that a proposal would name. -/
def target? : Action → Option Version
  | .update _ target => some target
  | .markObsolete since => some since
  | .rest _ | .review _ => none

instance : ToString Action where
  toString
    | .rest reason => s!"no action ({reason})"
    | .update current target => s!"update {current} → {target}"
    | .markObsolete since => s!"mark obsolete since {since}"
    | .review reason => s!"needs review: {reason}"

end Action

end StubSync
