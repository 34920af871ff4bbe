/-
When publishing reports that its branch exists.

It takes no more than that the creation of the branch is refused as
unprocessable.  The branch is read back then, but the answer counts only if it
shows the commit: a branch that is not there is reported like one that is in the
way.
-/
import StubSync.Proofs.Hosting.Discipline
import StubSync.Proposal.Submission

namespace StubSync

namespace GitHub

/-- The creation of the branch was refused as unprocessable, and nothing that was
read back of the branch shows the commit. -/
def Contested (branch : String) (steps : List Step) : Prop :=
  ∃ draft commit operation message reads,
    steps = draft ++
      ⟨.createBranch branch commit, .error (.rejected operation 422 message)⟩ :: reads ∧
    Drafting draft ∧ reads ≠ [] ∧ (∀ step ∈ reads, step.call = .readBranch branch) ∧
    ¬ Told (.readBranch branch) ["object", "sha"] commit reads

/-- The result reports a conflict. -/
def IsConflict {α : Type} (result : Except HostingError α) : Prop :=
  ∃ branch, result = .error (.conflict branch)

theorem not_isConflict_ok {α : Type} (value : α) : ¬ IsConflict (.ok value) := by
  rintro ⟨branch, hbranch⟩
  cases hbranch

theorem IsConflict.of_error {α β : Type} {error : HostingError}
    (hconflict : IsConflict (.error error : Except HostingError α)) :
    IsConflict (.error error : Except HostingError β) := by
  obtain ⟨branch, hbranch⟩ := hconflict
  exact ⟨branch, congrArg Except.error (Except.error.inj hbranch)⟩

/-- An answer reports a conflict itself. -/
def Conflicting (steps : List Step) : Prop :=
  ∃ step ∈ steps, IsConflict step.reply

section Drafts

variable {config : GitHub} {policy : RetryPolicy} {proposal : Proposal} {history : List Step}

/-- What follows the time of drafts is found in one way. -/
theorem Drafting.append_inj {draft other rest more : List Step} {step next : Step}
    (hdraft : Drafting draft) (hother : Drafting other) (hstep : ¬ IsDraft step.call)
    (hnext : ¬ IsDraft next.call) (hsame : draft ++ step :: rest = other ++ next :: more) :
    step = next ∧ rest = more := by
  induction draft generalizing other with
  | nil =>
      cases other with
      | nil => exact List.cons.inj hsame
      | cons head other =>
          rw [(List.cons.inj hsame).1] at hstep
          exact absurd (hother head List.mem_cons_self) hstep
  | cons head draft ih =>
      cases other with
      | nil =>
          rw [← (List.cons.inj hsame).1] at hnext
          exact absurd (hdraft head List.mem_cons_self) hnext
      | cons first other =>
          apply ih
          · exact fun step hstep => hdraft step (List.mem_cons_of_mem head hstep)
          · exact fun step hstep => hother step (List.mem_cons_of_mem first hstep)
          · exact (List.cons.inj hsame).2

theorem Drafting.not_contested (hdraft : Drafting history) (branch : String) :
    ¬ Contested branch history := by
  rintro ⟨draft, commit, operation, message, reads, rfl, _⟩
  exact (List.forall_mem_append.1 hdraft).2 _ List.mem_cons_self

/-- Only drafts were asked for, and a conflict in the result was an answer. -/
structure Drafts {α : Type} (result : Except HostingError α) (steps : List Step) : Prop where
  drafting : Drafting steps
  answered : IsConflict result → Conflicting steps

theorem Drafts.of_error {α β : Type} {error : HostingError} {steps : List Step}
    (hdrafts : Drafts (.error error : Except HostingError α) steps) :
    Drafts (.error error : Except HostingError β) steps where
  drafting := hdrafts.drafting
  answered hconflict := hdrafts.answered hconflict.of_error

theorem conflicting_of_reply {steps : List Step} {request : Call}
    {reply : Except HostingError Json} (hreply : IsConflict reply) :
    Conflicting (steps ++ [⟨request, reply⟩]) :=
  ⟨⟨request, reply⟩, List.mem_append_right _ (List.mem_singleton_self _), hreply⟩

theorem isConflict_of_textField {path : List String} {operation : String}
    {reply : Except HostingError Json}
    (hconflict : IsConflict (reply.bind (textField path operation))) : IsConflict reply := by
  cases reply with
  | error error => exact hconflict.of_error
  | ok value =>
      obtain ⟨branch, hbranch⟩ := hconflict
      simp only [Except.bind, textField] at hbranch
      split at hbranch
      · cases hbranch
      · cases hbranch
      · cases hbranch

theorem callForText_drafts {request : Call} {path : List String} (hdraft : Drafting history)
    (hrequest : IsDraft request) :
    Converses Anything (callForText policy request path) Drafts history := by
  apply Interaction.Paces.mono (callForText_converses fun _ _ => trivial)
  rintro result _ ⟨lost, reply, hlost, rfl, rfl⟩
  constructor
  · exact forall_call hlost hdraft hrequest reply
  · intro hconflict
    exact conflicting_of_reply (isConflict_of_textField hconflict)

theorem baseOf_drafts : Converses Anything (baseOf config policy proposal) Drafts [] := by
  unfold baseOf
  cases proposal.baseCommit with
  | some commit => exact ⟨drafting_nil, nofun⟩
  | none =>
      have hread : Converses Anything
          (callForText policy (.readBase config.baseBranch) ["object", "sha"]) Drafts [] :=
        callForText_drafts drafting_nil trivial
      exact hread

theorem createCommit_drafts (hdraft : Drafting history) (base : String) :
    Converses Anything (createCommit policy proposal base) Drafts history := by
  have hread : Converses Anything (callForText policy (.readCommit base) ["tree", "sha"]) Drafts
      history :=
    callForText_drafts hdraft trivial
  apply hread.bind
  intro tree steps hsteps
  cases tree with
  | error error => exact hsteps.of_error
  | ok tree =>
      have hcreate : Converses Anything
          (callForText policy (.createTree tree proposal.changes) ["sha"]) Drafts steps :=
        callForText_drafts hsteps.drafting trivial
      apply hcreate.bind
      intro created later hlater
      cases created with
      | error error => exact hlater.of_error
      | ok created => exact callForText_drafts hlater.drafting trivial

end Drafts

section Branches

variable {config : GitHub} {policy : RetryPolicy} {proposal : Proposal} {history : List Step}
  {branch commit : String}

/-- What the answer to the creation of a branch comes down to. -/
def Created (branch commit : String) (result : Except HostingError Unit) (reads : List Step) :
    Except HostingError Json → Prop
  | .ok _ => result = .ok () ∧ reads = []
  | .error error => ReadsBack branch commit error result reads

theorem createBranch_settles (branch commit : String) (history : List Step) :
    Converses Anything (createBranch policy branch commit)
      (fun result steps => ∃ reply reads,
        steps = history ++ ⟨.createBranch branch commit, reply⟩ :: reads ∧
        Created branch commit result reads reply) history := by
  have hcall : Converses Anything (call policy (.createBranch branch commit)) _ history :=
    call_converses fun _ _ => trivial
  apply hcall.bind
  rintro reply _ ⟨lost, hlost, rfl⟩
  rw [hlost.once rfl, List.append_nil]
  cases reply with
  | ok value => exact ⟨.ok value, [], rfl, rfl, rfl⟩
  | error error =>
      apply Interaction.Paces.mono (settleBranch_converses (fun _ _ => trivial) commit error)
      rintro result _ ⟨reads, rfl, hback⟩
      exact ⟨.error error, reads, List.append_assoc .., hback⟩

variable {result : Except HostingError Unit} {reply : Except HostingError Json}
  {reads : List Step}

/-- A branch that counts as created is not contested, whatever comes after it. -/
theorem Created.not_contested (hcreated : Created branch commit result reads reply)
    (hdraft : Drafting history) (hresult : result = .ok ()) (more : List Step) :
    ¬ Contested branch (history ++ ⟨.createBranch branch commit, reply⟩ :: (reads ++ more)) := by
  rintro ⟨draft, other, operation, message, rest, hsplit, hother, _, _, hnone⟩
  obtain ⟨hsame, hrest⟩ := hdraft.append_inj hother id id hsplit
  cases hsame
  obtain ⟨told, hmem, hcarries⟩ := hcreated.settled.1 hresult
  rw [← hrest] at hnone
  exact hnone ⟨told, List.mem_append_left more hmem, hcarries⟩

/-- A branch that is not created is reported as one that exists just if its
creation was refused as unprocessable. -/
theorem Created.conflict_iff {error : HostingError}
    (hcreated : Created branch commit result reads reply) (hdraft : Drafting history)
    (hresult : result = .error error)
    (hanswers : ¬ Conflicting (history ++ ⟨.createBranch branch commit, reply⟩ :: reads))
    (other : String) :
    error = .conflict other ↔ other = branch ∧
      Contested branch (history ++ ⟨.createBranch branch commit, reply⟩ :: reads) := by
  cases reply with
  | ok value =>
      rw [hcreated.1] at hresult
      cases hresult
  | error reason =>
      have hrefused := hcreated.refused error hresult
      rw [settleBranch.refused] at hrefused
      constructor
      · intro hconflict
        by_cases hunprocessable : reason.isUnprocessable = true
        · rw [if_pos hunprocessable, hconflict] at hrefused
          cases reason with
          | rejected operation status message =>
              have hstatus : status = 422 := by
                simpa [HostingError.isUnprocessable] using hunprocessable
              subst hstatus
              refine ⟨HostingError.conflict.inj hrefused, history, commit, operation, message,
                reads, rfl, hdraft, hcreated.asked hunprocessable, hcreated.calls, ?_⟩
              intro htold
              rw [hcreated.settled.2 htold] at hresult
              cases hresult
          | _ => cases hunprocessable
        · rw [if_neg hunprocessable, hconflict] at hrefused
          refine absurd ⟨_, List.mem_append_right _ List.mem_cons_self, other, ?_⟩ hanswers
          rw [hrefused]
      · rintro ⟨rfl, draft, found, operation, message, rest, hsplit, hother, _⟩
        obtain ⟨hsame, _⟩ := hdraft.append_inj hother id id hsplit
        cases hsame
        rw [hrefused]
        rfl

end Branches

section Publishing

variable {config : GitHub} {policy : RetryPolicy} {proposal : Proposal} {history : List Step}

theorem openPull_answered :
    Converses Anything (openPull config policy proposal)
      (fun result steps => IsConflict result → Conflicting steps) history := by
  have hcall : Converses Anything (call policy (openingOf config proposal)) _ history :=
    call_converses fun _ _ => trivial
  apply hcall.bind
  rintro reply _ ⟨lost, hlost, rfl⟩
  cases reply with
  | error error => exact fun hconflict => conflicting_of_reply hconflict.of_error
  | ok value =>
      dsimp only
      split
      · exact fun hconflict => absurd hconflict (not_isConflict_ok _)
      · rintro ⟨branch, hbranch⟩
        cases hbranch

/-- What becomes of a pull request that could not be opened is no new error. -/
theorem settlePull_error (error : HostingError) :
    Converses Anything (settlePull config policy proposal error)
      (fun result _ => ∀ other, result = .error other → other = error) history := by
  have hwithdraw : ∀ seen, Converses Anything (withdraw policy proposal error)
      (fun result _ => ∀ other, result = .error other → other = error) seen := by
    intro seen
    apply (converses_anything _).bind
    intro reply steps _ other hother
    exact (Except.error.inj hother).symm
  unfold settlePull
  split
  · apply (converses_anything _).bind
    intro found steps _
    split
    · intro other hother
      cases hother
    · exact hwithdraw steps
  · exact hwithdraw history

theorem finish_answered :
    Converses Anything (finish config policy proposal)
      (fun result steps => IsConflict result → Conflicting steps) history := by
  apply openPull_answered.bind
  intro result steps hanswered
  cases result with
  | ok pull => exact fun hconflict => absurd hconflict (not_isConflict_ok _)
  | error error =>
      apply (settlePull_error error).grows.mono
      rintro published later ⟨hsame, more, rfl⟩ ⟨branch, hbranch⟩
      obtain ⟨step, hstep, hconflict⟩ :=
        hanswered ⟨branch, congrArg Except.error (hsame _ hbranch).symm⟩
      exact ⟨step, List.mem_append_left more hstep, hconflict⟩

/-- As long as no answer reports a conflict itself, the only conflict is that of
the branch. -/
theorem publish_contests :
    Converses Anything (publish config policy proposal)
      (fun result steps => ¬ Conflicting steps → ∀ branch,
        result = .error (.conflict branch) ↔
          branch = proposal.branch ∧ Contested proposal.branch steps) [] := by
  have hearly {error : HostingError} {steps : List Step}
      (hsteps : Drafts (.error error : Except HostingError String) steps)
      (hanswers : ¬ Conflicting steps) (branch : String) :
      (.error error : Except HostingError Published) = .error (.conflict branch) ↔
        branch = proposal.branch ∧ Contested proposal.branch steps := by
    constructor
    · intro hconflict
      exact absurd (hsteps.of_error.answered ⟨branch, hconflict⟩) hanswers
    · rintro ⟨_, hcontested⟩
      exact absurd hcontested (hsteps.drafting.not_contested _)
  apply baseOf_drafts.bind
  intro base steps hsteps
  cases base with
  | error error => exact hearly hsteps
  | ok base =>
      apply (createCommit_drafts hsteps.drafting base).bind
      intro commit steps hsteps
      cases commit with
      | error error => exact hearly hsteps
      | ok commit =>
          apply (createBranch_settles proposal.branch commit steps).bind
          rintro result _ ⟨reply, reads, rfl, hcreated⟩
          cases result with
          | error error =>
              intro hanswers branch
              rw [← hcreated.conflict_iff hsteps.drafting rfl hanswers]
              exact ⟨Except.error.inj, congrArg Except.error⟩
          | ok done =>
              apply finish_answered.grows.mono
              rintro published later ⟨hanswered, more, rfl⟩ hanswers branch
              constructor
              · intro hconflict
                exact absurd (hanswered ⟨branch, hconflict⟩) hanswers
              · rintro ⟨_, hcontested⟩
                rw [List.append_assoc, List.cons_append] at hcontested
                exact absurd hcontested (hcreated.not_contested hsteps.drafting rfl more)

end Publishing

section OverWeb

variable {α σ : Type} {config : GitHub}

/-- No answer over the web reports a conflict. -/
theorem not_isConflict_ofAnswer (operation : String) (reply : Except Http.Failure Http.Answer) :
    ¬ IsConflict (ofAnswer operation reply) := by
  rintro ⟨branch, hbranch⟩
  have hfailure (failure : Http.Failure) : ofFailure operation failure ≠ .conflict branch := by
    cases failure with
    | timeout => exact nofun
    | broken message => exact nofun
  rw [ofAnswer.eq_def] at hbranch
  split at hbranch
  · exact hfailure _ (Except.error.inj hbranch)
  · split at hbranch
    · exact hfailure _ (Except.error.inj hbranch)
    · split at hbranch
      · rw [ofRefusal] at hbranch
        split at hbranch
        · cases hbranch
        · cases hbranch
      · split at hbranch
        · cases hbranch
        · split at hbranch
          · cases hbranch
          · cases hbranch

/-- Publishing reports a conflict just if the creation of its branch is refused as
unprocessable and the branch, when read back, does not show the commit.  Whether the
branch is there makes no difference. -/
theorem publish_conflict_iff (config : GitHub) (policy : RetryPolicy) (proposal : Proposal)
    (answer : (question : Http.Question) → σ → Http.Reply question × σ) (start : σ) :
    ∃ steps : List Step,
      List.Forall₂ (IsSentAs config) steps
        (Http.sends
          (((publish config policy proposal).interpret config.overWeb).trace answer start)) ∧
      ∀ branch,
        (((publish config policy proposal).interpret config.overWeb).run answer start).1 =
            .error (.conflict branch) ↔
          branch = proposal.branch ∧ Contested proposal.branch steps := by
  have hpublish : Converses Anything (publish config policy proposal) _ [] := publish_contests
  have hanswers : ¬ Conflicting (Interaction.seen step? ((publish config policy proposal).trace
      (Interaction.answering config.overWeb answer) start)) := by
    rintro ⟨step, hstep, hconflict⟩
    obtain ⟨reply, hreply, _⟩ := reply_of_seen answer hstep
    rw [hreply] at hconflict
    exact not_isConflict_ofAnswer _ _ hconflict
  have hiff := hpublish.run (Interaction.answering config.overWeb answer) start hanswers
  rw [List.nil_append] at hiff
  rw [Interaction.run_interpret]
  rcases config.requestOf?_cases with hnone | hreads
  · rw [sends_interpret_eq_nil answer hnone]
    refine ⟨[], .nil, fun branch => ?_⟩
    rw [hiff]
    -- What could not be sent was refused by no one.
    constructor
    · rintro ⟨_, draft, commit, operation, message, reads, hseen, _⟩
      have hmem : (⟨.createBranch proposal.branch commit,
          .error (.rejected operation 422 message)⟩ : Step) ∈
          Interaction.seen step? ((publish config policy proposal).trace
            (Interaction.answering config.overWeb answer) start) := by
        rw [hseen]
        exact List.mem_append_right _ List.mem_cons_self
      obtain ⟨reply, hreply, hunsent⟩ := reply_of_seen answer hmem
      rw [hunsent (hnone _)] at hreply
      cases hreply
    · rintro ⟨_, draft, commit, operation, message, reads, hseen, _⟩
      simp at hseen
  · exact ⟨_, sends_interpret answer hreads _ start, hiff⟩

end OverWeb

namespace ConflictExample

open AtomicityExample (config policy proposal)

/-- The service refuses every branch as one whose name is invalid, and has none but
the base. -/
def answered (request : Http.Request) : Http.Answer :=
  let target := request.address.target
  if target = "/repos/octo/stubs/git/ref/heads/main" then
    ⟨200, .ok "\x7b\"object\": \x7b\"sha\": \"base\"\x7d\x7d"⟩
  else if target = "/repos/octo/stubs/git/commits/base" then
    ⟨200, .ok "\x7b\"tree\": \x7b\"sha\": \"old\"\x7d\x7d"⟩
  else if target = "/repos/octo/stubs/git/trees" then ⟨201, .ok "\x7b\"sha\": \"new\"\x7d"⟩
  else if target = "/repos/octo/stubs/git/commits" then
    ⟨201, .ok "\x7b\"sha\": \"commit\"\x7d"⟩
  else if target = "/repos/octo/stubs/git/refs" then
    ⟨422, .ok "\x7b\"message\": \"Reference name is invalid\"\x7d"⟩
  else ⟨404, .ok "\x7b\"message\": \"Not Found\"\x7d"⟩

def answer : (question : Http.Question) → Unit → Http.Reply question × Unit
  | .send request, state => (.ok (answered request), state)
  | .pause _, state => ((), state)

/-- A request and the status it was answered with. -/
def shown (sent : Http.Sent) : Http.Method × String × Option Nat :=
  (sent.request.method, sent.request.address.target,
    sent.reply.toOption.map Http.Answer.status)

def publishing : Http.Exchange (Except HostingError Published) :=
  (publish config policy proposal).interpret config.overWeb

/-- The same proposal put to the service as a submission. -/
def submitting : Http.Exchange (Except SubmissionError Submission × Known) :=
  ((Submission.publish proposal).interpretFrom (asHosting config policy) none).interpret
    config.overWeb

/-- A branch that is not there is reported as one that exists, and so is its twin
after it. -/
theorem missing_reported :
    (publishing.run answer ()).1.toOption = none ∧
      (Http.sends (publishing.trace answer ())).map shown =
        [(.get, "/repos/octo/stubs/git/ref/heads/main", some 200),
          (.get, "/repos/octo/stubs/git/commits/base", some 200),
          (.post, "/repos/octo/stubs/git/trees", some 201),
          (.post, "/repos/octo/stubs/git/commits", some 201),
          (.post, "/repos/octo/stubs/git/refs", some 422),
          (.get, "/repos/octo/stubs/git/ref/heads/stubsabot/foo/bump-1.1", some 404)] ∧
      (publishing.run answer ()).1 = .error (.conflict "stubsabot/foo/bump-1.1") ∧
      (submitting.run answer ()).1.1 =
        .error (.hosting (.conflict "stubsabot/foo/bump-1.1-2")) := by
  decide +kernel

end ConflictExample

end GitHub

end StubSync
