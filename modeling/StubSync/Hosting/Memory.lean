/-
A hosting service that is kept in memory.
-/
import StubSync.Hosting.Basic

namespace StubSync

namespace Hosting

/-- The proposals of a service in the order of their numbers, the branches
that are taken, the issues filed, and errors that are waiting to be given as
the next answers. -/
structure Memory where
  proposals : List Existing := []
  taken : List String := []
  issues : List (String × String) := []
  /-- What was published, in order. -/
  published : List Proposal := []
  findErrors : List HostingError := []
  publishErrors : List HostingError := []
  issueErrors : List HostingError := []
deriving Repr, DecidableEq

namespace Memory

def find (memory : Memory) (query : Query) :
    Except HostingError (List Existing) × Memory :=
  match memory.findErrors with
  | error :: others => (.error error, { memory with findErrors := others })
  | [] => (.ok (memory.proposals.filter fun existing => query.covers existing.branch), memory)

/-- Open a proposal on its branch. -/
def opened (memory : Memory) (proposal : Proposal) : Published × Memory :=
  let number := memory.proposals.length + 1
  let url := "https://example.com/pull/" ++ proposal.branch
  (⟨number, proposal.branch, url⟩,
    { memory with
      proposals := memory.proposals ++ [⟨number, proposal.branch, url, .opened⟩]
      taken := memory.taken ++ [proposal.branch]
      published := memory.published ++ [proposal] })

def publish (memory : Memory) (proposal : Proposal) :
    Except HostingError Published × Memory :=
  match memory.publishErrors with
  | error :: others => (.error error, { memory with publishErrors := others })
  | [] =>
      if memory.taken.contains proposal.branch then
        (.error (.conflict proposal.branch), memory)
      else
        let (published, memory) := memory.opened proposal
        (.ok published, memory)

def issue (memory : Memory) (title body : String) : Except HostingError String × Memory :=
  match memory.issueErrors with
  | error :: others => (.error error, { memory with issueErrors := others })
  | [] =>
      let issues := memory.issues ++ [(title, body)]
      (.ok s!"https://example.com/issues/{issues.length}", { memory with issues })

/-- The answer to a question, and the service after it. -/
def answer : (question : Question) → Memory → Reply question × Memory
  | .find query, memory => memory.find query
  | .publish proposal, memory => memory.publish proposal
  | .issue title body, memory => memory.issue title body

/-- Something that happens to the service from outside. -/
inductive Event where
  | setState (branch : String) (state : ProposalState)
  | takeBranch (branch : String)
  | deleteBranch (branch : String)
  | failFind (error : HostingError)
  | failPublish (error : HostingError)
deriving Repr, DecidableEq

def apply (memory : Memory) : Event → Memory
  | .setState branch state =>
      { memory with
        proposals := memory.proposals.map fun existing =>
          if existing.branch = branch then { existing with state } else existing }
  | .takeBranch branch => { memory with taken := memory.taken ++ [branch] }
  | .deleteBranch branch =>
      { memory with taken := memory.taken.filter fun taken => taken != branch }
  | .failFind error => { memory with findErrors := memory.findErrors ++ [error] }
  | .failPublish error => { memory with publishErrors := memory.publishErrors ++ [error] }

end Memory

end Hosting

end StubSync
