/-
The calls that are made to the GitHub REST interface.

A call is attempted as one request.  Calls that read or delete are attempted
again while they fail in a passing way; a call that creates something is
attempted once, because it may have been carried out even if no answer came.
-/
import StubSync.Hosting.Basic
import StubSync.Http.Exchange
import StubSync.Index.Client
import StubSync.Json.Printer
import StubSync.Text.Quoted

namespace StubSync

/-- The repository that proposals are for, and how its service is reached. -/
structure GitHub where
  apiUrl : String
  /-- Owner and name, with a slash between them. -/
  repository : String
  token : String
  baseBranch : String
deriving Repr, DecidableEq

namespace GitHub

def defaultUrl : String := "https://api.github.com"

/-- The part of the repository's name before its first slash. -/
def owner (config : GitHub) : String :=
  match Text.cutAt? '/' config.repository.toList with
  | some (owner, _) => String.ofList owner
  | none => config.repository

/-- The repository as it is shown in logs, without the token. -/
def describe (config : GitHub) : String :=
  let fields := [("api_url", config.apiUrl), ("repository", config.repository),
    ("token", "<redacted>"), ("base_branch", config.baseBranch)]
  let shown := fields.map fun (name, value) => name ++ ": " ++ Quoted.quote value
  "GitHubConfig \x7b " ++ ", ".intercalate shown ++ " \x7d"

/-- The greatest number of pull requests on one page of a listing. -/
def perPage : Nat := 100

/-- The greatest number of pages that are read of a listing. -/
def maxPages : Nat := 10

inductive Call where
  | listPulls (state : String) (head : Option String) (page : Nat)
  /-- Read a branch that may be missing. -/
  | readBranch (branch : String)
  /-- Read the branch that proposals are based on. -/
  | readBase (branch : String)
  | readCommit (commit : String)
  | createTree (base : String) (changes : List FileChange)
  | createCommit (message tree parent : String)
  | createBranch (branch commit : String)
  | deleteBranch (branch : String)
  | openPull (title head base body : String)
  | createIssue (title body : String)
deriving Repr, DecidableEq

namespace Call

/-- The name of the call in errors. -/
def operation : Call → String
  | .listPulls .. => "list pull requests"
  | .readBranch _ => "read branch"
  | .readBase _ => "resolve base branch"
  | .readCommit _ => "read base commit"
  | .createTree .. => "create tree"
  | .createCommit .. => "create commit"
  | .createBranch .. => "create branch"
  | .deleteBranch _ => "delete branch"
  | .openPull .. => "create pull request"
  | .createIssue .. => "create issue"

def method : Call → Http.Method
  | .listPulls .. | .readBranch _ | .readBase _ | .readCommit _ => .get
  | .deleteBranch _ => .delete
  | .createTree .. | .createCommit .. | .createBranch .. | .openPull .. | .createIssue .. => .post

/-- What is asked for, below the address of the repository. -/
def path : Call → String
  | .listPulls state head page =>
      let filter :=
        match head with
        | some head => s!"&head={head}"
        | none => ""
      s!"/pulls?state={state}&per_page={perPage}&page={page}" ++ filter
  | .readBranch branch | .readBase branch => s!"/git/ref/heads/{branch}"
  | .readCommit commit => s!"/git/commits/{commit}"
  | .createTree .. => "/git/trees"
  | .createCommit .. => "/git/commits"
  | .createBranch .. => "/git/refs"
  | .deleteBranch branch => s!"/git/refs/heads/{branch}"
  | .openPull .. => "/pulls"
  | .createIssue .. => "/issues"

/-- A file of a tree, not executable. -/
def treeEntry (change : FileChange) : Json :=
  .object [("path", .text change.path), ("mode", .text "100644"), ("type", .text "blob"),
    ("content", .text change.contents)]

def body : Call → Option Json
  | .listPulls .. | .readBranch _ | .readBase _ | .readCommit _ | .deleteBranch _ => none
  | .createTree base changes =>
      some (.object [("base_tree", .text base), ("tree", .list (changes.map treeEntry))])
  | .createCommit message tree parent =>
      some (.object [("message", .text message), ("tree", .text tree),
        ("parents", .list [.text parent])])
  | .createBranch branch commit =>
      some (.object [("ref", .text ("refs/heads/" ++ branch)), ("sha", .text commit)])
  | .openPull title head base body =>
      some (.object [("title", .text title), ("head", .text head), ("base", .text base),
        ("body", .text body)])
  | .createIssue title body => some (.object [("title", .text title), ("body", .text body)])

end Call

/-- A step of a conversation with the service. -/
inductive Question where
  | attempt (call : Call)
  | pause (span : Span)
deriving Repr, DecidableEq

abbrev Reply : Question → Type
  | .attempt _ => Except HostingError Json
  | .pause _ => Unit

/-- Conversations with the service. -/
abbrev Exchange := Interaction Question Reply

def attempt (call : Call) : Exchange (Except HostingError Json) :=
  Interaction.query (Question.attempt call)

def pause (span : Span) : Exchange Unit :=
  Interaction.query (Question.pause span)

/-- Make a call, with repetitions if it does no harm to ask again. -/
def call (policy : RetryPolicy) (request : Call) : Exchange (Except HostingError Json) := do
  if request.method.isRepeatable then
    match ← retry policy HostingError.isTransient pause (attempt request) with
    | .ok value => return .ok value
    | .error failure => return .error failure.error
  else attempt request

section Answers

/-- The address of a call. -/
def url (config : GitHub) (request : Call) : String :=
  Text.dropTrailing '/' config.apiUrl ++ s!"/repos/{config.repository}" ++ request.path

def headers (config : GitHub) (request : Call) : List (String × String) :=
  [("accept", "application/vnd.github+json"), ("x-github-api-version", "2022-11-28"),
    ("authorization", "Bearer " ++ config.token), ("user-agent", userAgent)] ++
    match request.body with
    | some _ => [("content-type", "application/json")]
    | none => []

def ofFailure (operation : String) : Http.Failure → HostingError
  | .timeout => .timeout operation
  | .broken message => .network operation message

/-- What the service says about a request that it has refused. -/
def refusal (body : String) : String :=
  match (Json.readKept? body).bind fun value => (value.get? "message").bind Json.text? with
  | some message => message
  | none => Text.trimmed body

/-- The phrase that tells a rate limit from other ways of being forbidden. -/
def mentionsRateLimit (message : String) : Bool :=
  Text.containsPhrase "rate limit".toList (Text.lowerAscii message.toList)

def ofRefusal (operation : String) (status : Nat) (body : String) : HostingError :=
  let message := refusal body
  if status = 429 ∨ status = 403 ∧ mentionsRateLimit message then .rateLimited operation
  else .rejected operation status message

/-- What an answer says; an empty body says nothing. -/
def ofAnswer (operation : String) : Except Http.Failure Http.Answer → Except HostingError Json
  | .error failure => .error (ofFailure operation failure)
  | .ok answer =>
      match answer.text with
      | .error failure => .error (ofFailure operation failure)
      | .ok body =>
          if !answer.isSuccess then .error (ofRefusal operation answer.status body)
          else if Text.isBlankText body then .ok .null
          else
            match Json.readKept? body with
            | some value => .ok value
            | none => .error (.invalid operation "this is no JSON document")

/-- A conversation carried on by requests over the web. -/
def overWeb (config : GitHub) : (question : Question) → Http.Exchange (Reply question)
  | .attempt request => do
      let answer ← Http.send request.method (config.url request) (config.headers request)
        request.body
      return ofAnswer request.operation answer
  | .pause span => Http.pause span

end Answers

/-- A byte that may stand in a header: no control character but the tab. -/
def isHeaderByte (byte : UInt8) : Bool :=
  32 ≤ byte && byte != 127 || byte == 9

/-- The token can be sent. -/
def checkToken (config : GitHub) : Except HostingError Unit :=
  if config.token.toUTF8.toList.all isHeaderByte then .ok ()
  else .error (.invalid "client setup" "token contains invalid header characters")

end GitHub

end StubSync
