/-
Publishing a proposal as a commit on a new branch with a pull request.

A call that creates something may be carried out although no answer comes.
Then the branch or the pull request is read back, and only if it is not there
does the call count as failed.  A branch without a pull request is deleted
again.
-/
import StubSync.Hosting.Pulls

namespace StubSync

namespace GitHub

/-- The commit that a branch points at; `none` if there is no such branch. -/
def branchHead (policy : RetryPolicy) (branch : String) :
    Exchange (Except HostingError (Option String)) := do
  let request := Call.readBranch branch
  match ← call policy request with
  | .ok value => return (textField ["object", "sha"] request.operation value).map some
  | .error (.rejected _ 404 _) => return .ok none
  | .error error => return .error error

/-- The commit that a proposal builds on. -/
def baseOf (config : GitHub) (policy : RetryPolicy) (proposal : Proposal) :
    Exchange (Except HostingError String) := do
  match proposal.baseCommit with
  | some commit => return .ok commit
  | none =>
      let request := Call.readBase config.baseBranch
      match ← call policy request with
      | .error error => return .error error
      | .ok value => return textField ["object", "sha"] request.operation value

/-- Make a call and take a text out of its answer. -/
def callForText (policy : RetryPolicy) (request : Call) (path : List String) :
    Exchange (Except HostingError String) := do
  match ← call policy request with
  | .error error => return .error error
  | .ok value => return textField path request.operation value

/-- Create the commit of a proposal on top of another one. -/
def createCommit (policy : RetryPolicy) (proposal : Proposal) (base : String) :
    Exchange (Except HostingError String) := do
  match ← callForText policy (.readCommit base) ["tree", "sha"] with
  | .error error => return .error error
  | .ok baseTree =>
      match ← callForText policy (.createTree baseTree proposal.changes) ["sha"] with
      | .error error => return .error error
      | .ok tree => callForText policy (.createCommit proposal.commitMessage tree base) ["sha"]

/-- What a failed creation of a branch comes down to: no one else can have put
a branch on the commit, which is new. -/
def settleBranch (policy : RetryPolicy) (branch commit : String) (error : HostingError) :
    Exchange (Except HostingError Unit) := do
  if error.isUnprocessable || error.isTransient then
    match ← branchHead policy branch with
    | .ok (some head) => if head = commit then return .ok () else return .error refused
    | _ => return .error refused
  else return .error error
where
  refused : HostingError :=
    if error.isUnprocessable then .conflict branch else error

/-- Create a branch that points at a commit. -/
def createBranch (policy : RetryPolicy) (branch commit : String) :
    Exchange (Except HostingError Unit) := do
  match ← call policy (.createBranch branch commit) with
  | .ok _ => return .ok ()
  | .error error => settleBranch policy branch commit error

/-- Open the pull request of a proposal whose branch is there. -/
def openPull (config : GitHub) (policy : RetryPolicy) (proposal : Proposal) :
    Exchange (Except HostingError Pull) := do
  let request := Call.openPull proposal.title proposal.branch config.baseBranch proposal.body
  match ← call policy request with
  | .error error => return .error error
  | .ok value =>
      match Pull.ofJson? value with
      | some pull => return .ok pull
      | none => return .error (unexpected request.operation)

def publishedAs (proposal : Proposal) (pull : Pull) : Published :=
  ⟨pull.number, proposal.branch, pull.url⟩

/-- Delete the branch of a proposal that could not be opened, and give the
error that was in its way. -/
def withdraw (policy : RetryPolicy) (proposal : Proposal) (error : HostingError) :
    Exchange (Except HostingError Published) := do
  let _ ← call policy (.deleteBranch proposal.branch)
  return .error error

/-- What a failed opening of a pull request comes down to. -/
def settlePull (config : GitHub) (policy : RetryPolicy) (proposal : Proposal)
    (error : HostingError) : Exchange (Except HostingError Published) := do
  if error.isTransient || error.isUnprocessable then
    match ← openPullOf config policy proposal.branch with
    | .ok (some pull) => return .ok (publishedAs proposal pull)
    | _ => withdraw policy proposal error
  else withdraw policy proposal error

/-- Open the pull request of a proposal, or leave nothing of it behind. -/
def finish (config : GitHub) (policy : RetryPolicy) (proposal : Proposal) :
    Exchange (Except HostingError Published) := do
  match ← openPull config policy proposal with
  | .ok pull => return .ok (publishedAs proposal pull)
  | .error error => settlePull config policy proposal error

/-- Publish a proposal. -/
def publish (config : GitHub) (policy : RetryPolicy) (proposal : Proposal) :
    Exchange (Except HostingError Published) := do
  match ← baseOf config policy proposal with
  | .error error => return .error error
  | .ok base =>
      match ← createCommit policy proposal base with
      | .error error => return .error error
      | .ok commit =>
          match ← createBranch policy proposal.branch commit with
          | .error error => return .error error
          | .ok () => finish config policy proposal

/-- File an issue and give its address. -/
def createIssue (policy : RetryPolicy) (title body : String) :
    Exchange (Except HostingError String) :=
  callForText policy (.createIssue title body) ["html_url"]

/-- What is remembered between questions: the open proposals, once they have
been listed. -/
abbrev Known := Option (List Existing)

/-- The questions put to a hosting service, answered by this one. -/
def asHosting (config : GitHub) (policy : RetryPolicy) :
    (question : Hosting.Question) → Known → Exchange (Hosting.Reply question × Known)
  | .find query, known => findProposals config policy query known
  | .publish proposal, known => do return (← publish config policy proposal, known)
  | .issue title body, known => do return (← createIssue policy title body, known)

end GitHub

end StubSync
