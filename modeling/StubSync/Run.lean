/-
A run over the stub packages of a checkout.

Each package is a task of its own, which asks for the releases of the
distribution that it is for and, if there is something to propose, speaks to
the hosting service.  What fails in one task becomes the outcome of that
package alone.
-/
import StubSync.Classify
import StubSync.Index.Error
import StubSync.Proposal.Submission

namespace StubSync

namespace Run

/-- How a run is carried out. -/
structure Config where
  level : Level := .everything
  dryRun : Bool := false
  only : List String := []
  exclude : List String := []
  /-- The number of packages that may be processed at once. -/
  concurrency : Nat := 4
  showProgress : Bool := false
deriving Repr, DecidableEq

def Config.filter (config : Config) : RunFilter :=
  ⟨config.level, config.only, config.exclude⟩

/-- What a task asks. -/
inductive Question where
  | fetch (distribution : String)
  | host (question : Hosting.Question)
deriving Repr, DecidableEq

abbrev Reply : Question → Type
  | .fetch _ => Except IndexError (List Release)
  | .host question => Hosting.Reply question

abbrev Exchange := Interaction Question Reply

def fetch (distribution : String) : Exchange (Except IndexError (List Release)) :=
  Interaction.query (Question.fetch distribution)

/-- A conversation with the hosting service as part of a run. -/
def host {α : Type} (exchange : Hosting.Exchange α) : Exchange α :=
  exchange.interpret fun question => Interaction.query (Question.host question)

/-- What a submission comes down to for a package. -/
def concluded (entry : Entry) (action : Action) :
    Except SubmissionError Submission → Entry
  | .ok (.published proposal url) =>
      { entry with
        diff := some proposal.diff
        outcome := .proposed action proposal.branch (some url) }
  | .ok (.dryRun proposal) =>
      { entry with
        diff := some proposal.diff
        outcome := .proposed action proposal.branch none }
  | .ok (.skipped reason _) => { entry with outcome := .skipped (some action) reason }
  | .error error => { entry with outcome := .failed error.message }

/-- The entry of a package whose outcome is known. -/
def entryOf (package : Package) (latest : Option Version) (outcome : Outcome) : Entry where
  package := package.name
  distribution := package.distribution
  current := package.minVersion.raw
  latest := latest
  outcome := outcome

/-- Carry out the verdict on a package. -/
def act (config : Config) (package : Package) (latest : Option Version) (action : Action) :
    Exchange Entry := do
  match action with
  | .rest reason => return entryOf package latest (.skipped (some action) (.rest reason))
  | .review reason => return entryOf package latest (.review reason)
  | .update .. | .markObsolete _ =>
      let skipped := entryOf package latest (.skipped (some action) .belowActionLevel)
      if config.filter.permits action then
        return concluded skipped action (← host (Submission.propose config.dryRun package action))
      else return skipped

/-- The task of a package. -/
def process (config : Config) (package : Package) : Exchange Entry := do
  match ← fetch package.distribution with
  | .error error => return entryOf package none (.failed error.message)
  | .ok releases =>
      let latest := (Release.latest? releases package.prerelease).map Release.version
      act config package latest (classify package releases)

/-- The task of a package, unless the run was told to leave it out. -/
def task (config : Config) (package : Package) : Exchange Entry :=
  if config.filter.processes package.name then process config package
  else return entryOf package none (.skipped none .filtered)

/-- The entries of all packages, one task after the other. -/
def entries (config : Config) : List Package → Exchange (List Entry)
  | [] => return []
  | package :: others => do
      let entry ← task config package
      return entry :: (← entries config others)

/-- The report of a run. -/
def report (config : Config) (startedAt finishedAt : Instant) (entries : List Entry) : Report where
  level := config.level
  dryRun := config.dryRun
  startedAt := startedAt
  finishedAt := some finishedAt
  entries := entries

end Run

end StubSync
