/-
What a stub package needs, given the releases of the distribution it is for.
-/
import StubSync.Action
import StubSync.Package
import StubSync.Release

namespace StubSync

/-- The reason given when the index knows no release. -/
def vanished : String := "upstream distribution vanished"

/-- The reason given when the latest release reaches the upper bound. -/
def upperBoundExceeded : String := "upper bound exceeded"

/-- The verdict on a package.  Packages that are frozen come first, so they
are never reported; a distribution with its own types comes before the upper
bound. -/
def classify (package : Package) (releases : List Release) : Action :=
  if package.isObsolete then .rest .alreadyObsolete
  else if package.noLongerUpdated then .rest .noLongerUpdated
  else if releases.isEmpty then .review vanished
  else
    match Release.latest? releases package.prerelease with
    | none => .rest .noStableRelease
    | some latest =>
        if package.minVersion.covers latest.version then .rest .upToDate
        else if latest.typed then .markObsolete latest.version
        else if package.maxVersion.any (· ≤ latest.version) then .review upperBoundExceeded
        else .update package.minVersion.version latest.version

/-- The names and the level that a run is restricted to. -/
structure RunFilter where
  level : Level := .everything
  only : List String := []
  exclude : List String := []
deriving Repr, DecidableEq

namespace RunFilter

/-- A list of names to process takes precedence over one of names to leave
out. -/
def processes (filter : RunFilter) (name : String) : Bool :=
  if filter.only.isEmpty then !filter.exclude.contains name
  else filter.only.contains name

/-- The action may become a proposal in this run. -/
def permits (filter : RunFilter) (action : Action) : Bool :=
  action.isProposable && action.severity.allowedAt filter.level

end RunFilter

end StubSync
