/-
Putting a proposal before the hosting service, unless a proposal there stands
in its way.
-/
import StubSync.Hosting.Basic
import StubSync.Report.Basic

namespace StubSync

/-- What became of a proposal. -/
inductive Submission where
  | published (proposal : Proposal) (url : String)
  /-- The proposal was made up but not published. -/
  | dryRun (proposal : Proposal)
  | skipped (reason : SkipReason) (existing : Existing)
deriving Repr, DecidableEq

inductive SubmissionError where
  | metadata (error : MetadataError)
  | hosting (error : HostingError)
deriving Repr, DecidableEq

def SubmissionError.message : SubmissionError → String
  | .metadata error => error.message
  | .hosting error => error.message

namespace Submission

/-- The candidate is the branch or its twin. -/
def isSameChange (branch candidate : String) : Bool :=
  candidate == branch || candidate == Proposal.twinBranch branch

/-- What a proposal of the same change means, by its state; the first state
that is there decides. -/
def verdicts : List (ProposalState × SkipReason) :=
  [(.opened, .duplicate), (.merged, .alreadyMerged), (.closed, .previouslyRejected)]

/-- The proposal that stands in the way of one on `branch`, and why. -/
def blocking? (branch : String) (existing : List Existing) :
    Option (SkipReason × Existing) :=
  let same := existing.filter fun found => isSameChange branch found.branch
  let decided := verdicts.findSome? fun (state, reason) =>
    (same.find? fun found => found.state == state).map fun found => (reason, found)
  decided <|>
    (existing.find? fun found =>
      found.state == .opened && !isSameChange branch found.branch).map fun found =>
        (.proposalPending found.branch, found)

/-- Publish a proposal, a second time on the twin of its branch if the branch
is taken. -/
def publish (proposal : Proposal) : Hosting.Exchange (Except SubmissionError Submission) := do
  match ← Hosting.publish proposal with
  | .ok result => return .ok (.published proposal result.url)
  | .error (.conflict branch) => do
      let twin := proposal.onBranch (Proposal.twinBranch branch)
      match ← Hosting.publish twin with
      | .ok result => return .ok (.published twin result.url)
      | .error error => return .error (.hosting error)
  | .error error => return .error (.hosting error)

/-- Propose to carry out an action on a package.  In a dry run nothing is
published. -/
def propose (dryRun : Bool) (package : Package) (action : Action) :
    Hosting.Exchange (Except SubmissionError Submission) := do
  let some branch := Proposal.branch? package.name action
    | return .error (.metadata (Proposal.notProposable package action))
  match ← Hosting.find ⟨Proposal.branchLead package.name, branch⟩ with
  | .error error => return .error (.hosting error)
  | .ok existing =>
      match blocking? branch existing with
      | some (reason, found) => return .ok (.skipped reason found)
      | none =>
          match Proposal.build package action with
          | .error error => return .error (.metadata error)
          | .ok proposal =>
              if dryRun then return .ok (.dryRun proposal) else publish proposal

end Submission

end StubSync
