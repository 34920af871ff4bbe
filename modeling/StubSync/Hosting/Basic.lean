/-
The service that hosts the repository: what it shows and what it is asked.
-/
import StubSync.Interaction
import StubSync.Proposal.Basic

namespace StubSync

inductive ProposalState where
  | opened
  | closed
  | merged
deriving Repr, DecidableEq

namespace ProposalState

def all : List ProposalState :=
  [.opened, .closed, .merged]

def name : ProposalState → String
  | .opened => "open"
  | .closed => "closed"
  | .merged => "merged"

def ofName? (text : String) : Option ProposalState :=
  all.find? fun state => state.name == text

end ProposalState

/-- A proposal that is on the hosting service. -/
structure Existing where
  number : Nat
  branch : String
  url : String
  state : ProposalState
deriving Repr, DecidableEq

/-- A proposal that has just been published. -/
structure Published where
  number : Nat
  branch : String
  url : String
deriving Repr, DecidableEq

inductive HostingError where
  /-- The branch to publish on exists already. -/
  | conflict (branch : String)
  | rejected (operation : String) (status : Nat) (message : String)
  | network (operation message : String)
  | rateLimited (operation : String)
  | timeout (operation : String)
  | invalid (operation message : String)
deriving Repr, DecidableEq

namespace HostingError

def message : HostingError → String
  | .conflict branch => s!"branch '{branch}' already exists"
  | .rejected operation status message =>
      s!"hosting API rejected {operation}: HTTP {status}: {message}"
  | .network operation message => s!"hosting API request for {operation} failed: {message}"
  | .rateLimited operation => s!"hosting API rate limit exceeded during {operation}"
  | .timeout operation => s!"timeout during {operation}"
  | .invalid operation message => s!"invalid response for {operation}: {message}"

/-- The error may pass, so asking again is worth it. -/
def isTransient : HostingError → Bool
  | .rejected _ status _ => 500 ≤ status
  | .network .. | .rateLimited _ | .timeout _ => true
  | .conflict _ | .invalid .. => false

/-- The service has refused the request as one that it cannot process. -/
def isUnprocessable : HostingError → Bool
  | .rejected _ status _ => status == 422
  | _ => false

end HostingError

namespace Hosting

/-- Which proposals to look for: all on branches that start with `lead`, in
any state at least those on `branch`, the branch about to be proposed. -/
structure Query where
  lead : String
  branch : String
deriving Repr, DecidableEq

def Query.covers (query : Query) (branch : String) : Bool :=
  Text.startsWith branch query.lead

/-- The questions that a hosting service answers. -/
inductive Question where
  | find (query : Query)
  | publish (proposal : Proposal)
  | issue (title body : String)
deriving Repr, DecidableEq

abbrev Reply : Question → Type
  | .find _ => Except HostingError (List Existing)
  | .publish _ => Except HostingError Published
  | .issue _ _ => Except HostingError String

/-- Computations that use a hosting service. -/
abbrev Exchange := Interaction Question Reply

def find (query : Query) : Exchange (Except HostingError (List Existing)) :=
  Interaction.query (Question.find query)

def publish (proposal : Proposal) : Exchange (Except HostingError Published) :=
  Interaction.query (Question.publish proposal)

def issue (title body : String) : Exchange (Except HostingError String) :=
  Interaction.query (Question.issue title body)

end Hosting

end StubSync
