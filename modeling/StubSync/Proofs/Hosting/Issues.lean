/-
Issues are filed by one request, and by no other call.

Neither looking for proposals nor publishing one asks for an issue.  The
request of another call has no issue in it, and it does not go to where the
repository has its issues.
-/
import StubSync.Proofs.Hosting.Discipline
import StubSync.Proofs.Hosting.Listings

namespace StubSync

namespace GitHub

open Http (pathBelow?)

open Interaction (OnlyAsks onlyAsks_query)

/-- No issue is asked for. -/
def NoIssue : Question → Prop
  | .attempt (.createIssue _ _) => False
  | _ => True

section Calls

variable {config : GitHub} {policy : RetryPolicy}

theorem publish_noIssue (proposal : Proposal) :
    (publish config policy proposal).OnlyAsks NoIssue := by
  have hpublish : Converses (Ready config proposal) (publish config policy proposal) _ [] :=
    publish_converses
  refine hpublish.onlyAsks fun history question hready => ?_
  unfold NoIssue
  split
  · exact hready
  · trivial

/-- The question asks for no issue. -/
def IsAboutProposals : Hosting.Question → Prop
  | .issue _ _ => False
  | _ => True

theorem asHosting_noIssue (question : Hosting.Question) (known : Known)
    (hquestion : IsAboutProposals question) :
    (asHosting config policy question known).OnlyAsks NoIssue := by
  cases question with
  | find query => exact findProposals_asks (fun _ => trivial) (fun _ _ _ => trivial) query known
  | publish proposal => exact (publish_noIssue proposal).bind fun _ => trivial
  | issue title body => exact hquestion.elim

end Calls

section Requests

/-- An issue, as it is sent. -/
def issueOf (title text : String) : Json :=
  .object [("title", .text title), ("body", .text text)]

/-- Where a repository has its issues, below the interface of the service. -/
def issuesPlace (repository : String) : String :=
  "repos/" ++ repository ++ "/issues"

/-- The request files an issue: a title and a text are sent to where the
repository has its issues. -/
structure IsAlert (config : GitHub) (request : Http.Request) : Prop where
  method : request.method = .post
  address : Address.read? (Text.dropTrailing '/' config.apiUrl ++ "/" ++
    issuesPlace config.repository) = some request.address
  headers : request.headers = [("accept", "application/vnd.github+json"),
    ("x-github-api-version", "2022-11-28"), ("authorization", "Bearer " ++ config.token),
    ("user-agent", userAgent), ("content-type", "application/json")]
  body : ∃ title text, request.body = some (issueOf title text)
  place : ∀ interface, config.IsServedAt interface →
    pathBelow? interface request.address = some (issuesPlace config.repository)

/-- The request has no issue in it, and nothing is sent with it to where the
repository has its issues. -/
structure SparesIssues (config : GitHub) (request : Http.Request) : Prop where
  body : ∀ title text, request.body ≠ some (issueOf title text)
  place : ∀ interface, config.IsServedAt interface → request.method = .post →
    pathBelow? interface request.address ≠ some (issuesPlace config.repository)

/-- What is sent for an issue: one request, unless the service has no address
that can be read. -/
inductive Alerts (config : GitHub) : List Http.Sent → Prop
  | filed {sent : Http.Sent} (halert : IsAlert config sent.request) : Alerts config [sent]
  | unmakable (haddress : Address.read? (Text.dropTrailing '/' config.apiUrl ++ "/") = none) :
      Alerts config []

def NoAlert (config : GitHub) : Http.Question → Prop
  | .send request => SparesIssues config request
  | .pause _ => True

variable {config : GitHub}

theorem issuesPlace_eq (repository : String) :
    issuesPlace repository = "repos/" ++ repository ++ "/" ++ "issues" := by
  have hissues : "/" ++ "issues" = "/issues" := by decide
  rw [issuesPlace, ← hissues, ← String.append_assoc]

theorem url_createIssue (title text : String) :
    config.url (.createIssue title text) =
      Text.dropTrailing '/' config.apiUrl ++ "/" ++ issuesPlace config.repository := by
  have hurl : config.url (.createIssue title text) =
      Text.dropTrailing '/' config.apiUrl ++ ("/repos/" ++ config.repository) ++ "/issues" := rfl
  have hrepos : "/repos/" = "/" ++ "repos/" := by decide
  rw [hurl, hrepos, issuesPlace]
  simp only [String.append_assoc]

theorem isAlert_of_requestOf? {title text : String} {request : Http.Request}
    (hrequest : config.requestOf? (.createIssue title text) = some request) :
    IsAlert config request := by
  have hplace (interface : Address) (hserved : config.IsServedAt interface) :
      pathBelow? interface request.address = some (issuesPlace config.repository) := by
    rw [issuesPlace_eq]
    exact (isDirected_of_requestOf? hserved hrequest).place trivial
  obtain ⟨address, hread, rfl⟩ := Option.map_eq_some_iff.1 hrequest
  rw [url_createIssue] at hread
  exact ⟨rfl, hread, rfl, ⟨title, text, rfl⟩, hplace⟩

theorem alerts_of_requestOf? {title text : String} {sent : List Http.Sent}
    (hsent : sent.map Http.Sent.request =
      (config.requestOf? (.createIssue title text)).toList) : Alerts config sent := by
  cases hrequest : config.requestOf? (.createIssue title text) with
  | none =>
      rw [hrequest, Option.toList_none, List.map_eq_nil_iff] at hsent
      subst hsent
      refine .unmakable (Option.eq_none_iff_forall_ne_some.2 fun interface hreads => ?_)
      obtain ⟨request, hmade, _⟩ := exists_requestOf? hreads (.createIssue title text)
      rw [hrequest] at hmade
      cases hmade
  | some request =>
      rw [hrequest, Option.toList_some, List.map_eq_singleton_iff] at hsent
      obtain ⟨entry, rfl, rfl⟩ := hsent
      exact .filed (isAlert_of_requestOf? hrequest)

theorem body_ne_issue {call : Call} (hcall : NoIssue (.attempt call)) (title text : String) :
    call.body ≠ some (issueOf title text) := by
  cases call with
  | createIssue title text => exact hcall.elim
  | _ => simp [Call.body, issueOf]

theorem goal_ne_issues {call : Call} (hcall : NoIssue (.attempt call))
    (hmethod : call.method = .post) : call.IsSpelled ∧ call.goal.2 ≠ "issues" := by
  have htrees : "git/trees" ≠ "issues" := by decide
  have hcommits : "git/commits" ≠ "issues" := by decide
  have hrefs : "git/refs" ≠ "issues" := by decide
  have hpulls : "pulls" ≠ "issues" := by decide
  cases call with
  | createIssue title text => exact hcall.elim
  | createTree base changes => exact ⟨trivial, htrees⟩
  | createCommit message tree parent => exact ⟨trivial, hcommits⟩
  | createBranch branch commit => exact ⟨trivial, hrefs⟩
  | openPull title head base body => exact ⟨trivial, hpulls⟩
  | _ => cases hmethod

theorem sparesIssues_of_requestOf? {call : Call} {request : Http.Request}
    (hcall : NoIssue (.attempt call)) (hrequest : config.requestOf? call = some request) :
    SparesIssues config request where
  body title text := by
    rw [body_of_requestOf? hrequest]
    exact body_ne_issue hcall title text
  place interface hserved hmethod hissues := by
    rw [method_of_requestOf? hrequest] at hmethod
    obtain ⟨hspelled, hgoal⟩ := goal_ne_issues hcall hmethod
    have hplace := (isDirected_of_requestOf? hserved hrequest).place hspelled
    rw [hissues, Option.some_inj, issuesPlace_eq, ← String.toList_inj] at hplace
    simp only [String.toList_append, List.append_cancel_left_eq] at hplace
    exact hgoal (String.toList_inj.1 hplace.symm)

theorem overWeb_noAlert (question : Question) (hquestion : NoIssue question) :
    (config.overWeb question).OnlyAsks (NoAlert config) := by
  cases question with
  | pause span => exact onlyAsks_query trivial
  | attempt call =>
      rw [overWeb_attempt]
      cases hrequest : config.requestOf? call with
      | none => trivial
      | some request => exact ⟨sparesIssues_of_requestOf? hquestion hrequest, fun _ => trivial⟩

end Requests

end GitHub

end StubSync
