/-
Proposals of a change to the metadata of one stub package.
-/
import StubSync.Metadata.Edit
import StubSync.Patch

namespace StubSync

/-- The new contents of a file; its path starts at the root of the
repository. -/
structure FileChange where
  path : String
  contents : String
deriving Repr, DecidableEq

structure Proposal where
  package : String
  action : Action
  /-- What makes two proposals the same change. -/
  dedupKey : String
  branch : String
  title : String
  commitMessage : String
  body : String
  changes : List FileChange
  diff : String
  /-- The commit to build on; the head of the base branch if it is missing. -/
  baseCommit : Option String
deriving Repr, DecidableEq

namespace Proposal

/-- What the names of all branches start with. -/
def branchRoot : String := "stubsabot"

/-- What ends the name of the branch that is tried second. -/
def twinMark : String := "-2"

/-- What all branches of one stub package start with. -/
def branchLead (stub : String) : String :=
  branchRoot ++ "/" ++ stub ++ "/"

def dedupKey? (stub : String) (action : Action) : Option String :=
  action.target?.map fun version => s!"{stub}:{action.kind}:{version}"

def branch? (stub : String) (action : Action) : Option String :=
  action.target?.map fun version => branchLead stub ++ s!"{action.kind}-{version}"

/-- The branch that is tried if `branch` is taken. -/
def twinBranch (branch : String) : String :=
  branch ++ twinMark

def commitMessageOf (stub : String) (action : Action) (version : Version) : String :=
  match action with
  | .markObsolete since => s!"[stubsabot] Mark {stub} as obsolete since {since}"
  | _ => s!"[stubsabot] Bump {stub} to {version}"

def releaseLink (distribution : String) (version : Version) : String :=
  s!"Release: https://pypi.org/project/{distribution}/{version}/\n\n"

/-- What a proposal is for. -/
def motive (package : Package) (action : Action) : String :=
  let distribution := package.distribution
  match action with
  | .update current target =>
      releaseLink distribution target ++
        s!"Bumps the minimum supported `{distribution}` version from {current} to {target}.\n"
  | .markObsolete since =>
      releaseLink distribution since ++
        s!"`{distribution}` {since} declares `Typing :: Typed` and ships its own type information, so these stubs are marked obsolete.\n"
  | .rest _ | .review _ => s!"{action}\n"

def bodyOf (package : Package) (action : Action) : String :=
  let base :=
    match package.lastKnownGood with
    | some commit => s!"Based on: {commit}\n"
    | none => ""
  motive package action ++ s!"\nAction level: {action.severity.label}\n" ++ base

/-- The error of an action that no proposal can be made of. -/
def notProposable (package : Package) (action : Action) : MetadataError :=
  .unchangeable package.metadataPath s!"'{action.kind}' is not a proposable action"

/-- The proposal to carry out an action on a package. -/
def build (package : Package) (action : Action) : Except MetadataError Proposal := do
  let some version := action.target? | throw (notProposable package action)
  let contents ← Metadata.edit package action
  let message := commitMessageOf package.name action version
  return {
    package := package.name
    action
    dedupKey := (dedupKey? package.name action).getD ""
    branch := (branch? package.name action).getD ""
    title := message
    commitMessage := message
    body := bodyOf package action
    changes := [⟨Path.withSlashes package.metadataPath, contents⟩]
    diff := Patch.unified package.metadataPath package.metadataSource contents
    baseCommit := package.lastKnownGood }

/-- The same proposal on another branch. -/
def onBranch (proposal : Proposal) (branch : String) : Proposal :=
  { proposal with branch }

end Proposal

end StubSync
