/-
Pull requests as the service shows them, and listings of them.
-/
import StubSync.Hosting.Call
import StubSync.Json.Record

namespace StubSync

namespace GitHub

/-- A pull request as the service shows it. -/
structure Pull where
  number : Nat
  url : String
  state : String
  mergedAt : Option String
  branch : String
deriving Repr, DecidableEq

namespace Pull

def number? (value : Json) : Option Nat :=
  value.natural?.filter (· < Decimal.wordLimit)

def branch? (value : Json) : Option String := do
  let record ← Json.Record.ofJson? ["ref"] value
  record.required "ref" Json.text?

def ofJson? (value : Json) : Option Pull := do
  let record ← Json.Record.ofJson? ["number", "html_url", "state", "merged_at", "head"] value
  return {
    number := ← record.required "number" number?
    url := ← record.required "html_url" Json.text?
    state := ← record.required "state" Json.text?
    mergedAt := ← record.optional "merged_at" Json.text?
    branch := ← record.required "head" branch? }

/-- A pull request with a time of merging is merged, whatever its state. -/
def toExisting (pull : Pull) : Existing where
  number := pull.number
  branch := pull.branch
  url := pull.url
  state :=
    if pull.mergedAt.isSome then .merged
    else if pull.state = "open" then .opened
    else .closed

end Pull

/-- The error of an answer that is no record of the kind asked for. -/
def unexpected (operation : String) : HostingError :=
  .invalid operation "this is no record of a pull request"

/-- A text deep in an answer. -/
def textField (path : List String) (operation : String) (value : Json) :
    Except HostingError String :=
  let name := ".".intercalate path
  match value.at? path with
  | none => .error (.invalid operation s!"missing field '{name}'")
  | some (.text content) => .ok content
  | some _ => .error (.invalid operation s!"field '{name}' is not a string")

/-- The pull requests of one page of a listing. -/
def page (policy : RetryPolicy) (state : String) (head : Option String) (number : Nat) :
    Exchange (Except HostingError (List Pull)) := do
  let request := Call.listPulls state head number
  match ← call policy request with
  | .error error => return .error error
  | .ok value =>
      match Json.listOf? Pull.ofJson? value with
      | some pulls => return .ok pulls
      | none => return .error (unexpected request.operation)

/-- The pull requests on page `number` and the pages after it, of which at most
`left` are read.  The last page is the first that is not full. -/
def pagesFrom (policy : RetryPolicy) (state : String) (head : Option String) (number : Nat) :
    Nat → Exchange (Except HostingError (List Pull))
  | 0 => return .ok []
  | left + 1 => do
      match ← page policy state head number with
      | .error error => return .error error
      | .ok pulls =>
          if pulls.length < perPage then return .ok pulls
          else
            match ← pagesFrom policy state head (number + 1) left with
            | .error error => return .error error
            | .ok others => return .ok (pulls ++ others)

/-- A listing of pull requests in a state, of one head branch or of all. -/
def listPulls (policy : RetryPolicy) (state : String) (head : Option String) :
    Exchange (Except HostingError (List Pull)) :=
  pagesFrom policy state head 1 maxPages

/-- How a listing is asked for the pull requests of a branch. -/
def headOf (config : GitHub) (branch : String) : String :=
  config.owner ++ ":" ++ branch

/-- The open pull request of a branch. -/
def openPullOf (config : GitHub) (policy : RetryPolicy) (branch : String) :
    Exchange (Except HostingError (Option Pull)) := do
  match ← listPulls policy "open" (some (config.headOf branch)) with
  | .error error => return .error error
  | .ok pulls => return .ok pulls.head?

/-- The proposals with one more, unless its number is there already. -/
def addNew (found : List Existing) (proposal : Existing) : List Existing :=
  if found.any fun earlier => earlier.number == proposal.number then found
  else found ++ [proposal]

/-- The proposals found so far and those on the given branches, in any
state. -/
def findOnBranches (config : GitHub) (policy : RetryPolicy) (found : List Existing) :
    List String → Exchange (Except HostingError (List Existing))
  | [] => return .ok found
  | branch :: others => do
      match ← listPulls policy "all" (some (config.headOf branch)) with
      | .error error => return .error error
      | .ok pulls =>
          findOnBranches config policy ((pulls.map Pull.toExisting).foldl addNew found) others

/-- All open proposals; a listing that has been read before is not read
again. -/
def openProposals (policy : RetryPolicy) (known : Option (List Existing)) :
    Exchange (Except HostingError (List Existing)) := do
  match known with
  | some proposals => return .ok proposals
  | none =>
      match ← listPulls policy "open" none with
      | .error error => return .error error
      | .ok pulls => return .ok (pulls.map Pull.toExisting)

/-- The proposals on the branch of a query and on its twin, in any state, and
the open ones that the query covers.  The listing of open proposals comes with
the answer, for later queries. -/
def findProposals (config : GitHub) (policy : RetryPolicy) (query : Hosting.Query)
    (known : Option (List Existing)) :
    Exchange (Except HostingError (List Existing) × Option (List Existing)) := do
  let branches := [query.branch, Proposal.twinBranch query.branch]
  match ← findOnBranches config policy [] branches with
  | .error error => return (.error error, known)
  | .ok found =>
      match ← openProposals policy known with
      | .error error => return (.error error, known)
      | .ok proposals =>
          let covered := proposals.filter fun proposal => query.covers proposal.branch
          return (.ok (covered.foldl addNew found), some proposals)

end GitHub

end StubSync
