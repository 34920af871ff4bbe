/-
The report of a run: one entry for each stub package, in the order of their
names.
-/
import StubSync.Action
import StubSync.Time.Instant

namespace StubSync

/-- Why nothing was proposed for a package. -/
inductive SkipReason where
  | rest (reason : Rest)
  | belowActionLevel
  | duplicate
  | previouslyRejected
  | alreadyMerged
  /-- Another proposal for the package is open. -/
  | proposalPending (branch : String)
  /-- The run was told to leave the package out. -/
  | filtered
deriving Repr, DecidableEq

instance : ToString SkipReason where
  toString
    | .rest reason => toString reason
    | .belowActionLevel => "below action level"
    | .duplicate => "duplicate"
    | .previouslyRejected => "previously rejected"
    | .alreadyMerged => "already merged"
    | .proposalPending branch => s!"another proposal is open ({branch})"
    | .filtered => "filtered"

/-- What became of a package. -/
inductive Outcome where
  /-- A proposal was published; without a link it was only made up. -/
  | proposed (action : Action) (branch : String) (url : Option String)
  | skipped (action : Option Action) (reason : SkipReason)
  | review (reason : String)
  | failed (error : String)
deriving Repr, DecidableEq

namespace Outcome

def isProposed : Outcome → Bool
  | .proposed .. => true
  | _ => false

def isSkipped : Outcome → Bool
  | .skipped .. => true
  | _ => false

def isReview : Outcome → Bool
  | .review _ => true
  | _ => false

def isFailed : Outcome → Bool
  | .failed _ => true
  | _ => false

/-- The run was told to leave the package out. -/
def isFiltered : Outcome → Bool
  | .skipped _ .filtered => true
  | _ => false

instance : ToString Outcome where
  toString
    | .proposed action _ (some url) => s!"proposed {action} ({url})"
    | .proposed action _ none => s!"proposed {action}"
    | .skipped _ reason => s!"skipped ({reason})"
    | .review reason => s!"needs review ({reason})"
    | .failed error => s!"failed: {error}"

end Outcome

/-- What a report says about one package. -/
structure Entry where
  package : String
  /-- The distribution that the package is for. -/
  distribution : String
  /-- The declared minimum version when the run started. -/
  current : String
  /-- The newest release that counts. -/
  latest : Option Version := none
  outcome : Outcome
  /-- The diff of the proposed change. -/
  diff : Option String := none
deriving Repr, DecidableEq

structure Report where
  level : Level
  dryRun : Bool
  startedAt : Instant
  finishedAt : Option Instant := none
  entries : List Entry
deriving Repr, DecidableEq

namespace Report

/-- The number of entries with an outcome of some kind. -/
def count (report : Report) (kind : Outcome → Bool) : Nat :=
  report.entries.countP fun entry => kind entry.outcome

def proposedCount (report : Report) : Nat :=
  report.count Outcome.isProposed

def skippedCount (report : Report) : Nat :=
  report.count Outcome.isSkipped

def reviewCount (report : Report) : Nat :=
  report.count Outcome.isReview

def failedCount (report : Report) : Nat :=
  report.count Outcome.isFailed

def failures (report : Report) : List Entry :=
  report.entries.filter fun entry => entry.outcome.isFailed

/-- No package failed. -/
def isSuccess (report : Report) : Bool :=
  report.failedCount == 0

/-- The first entry of a package. -/
def find? (report : Report) (package : String) : Option Entry :=
  report.entries.find? fun entry => entry.package == package

end Report

end StubSync
