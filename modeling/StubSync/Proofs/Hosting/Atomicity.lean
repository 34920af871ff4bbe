/-
Publishing leaves a branch with its pull request, or nothing.

Each step of publishing has one lemma that says what it may come down to,
whatever answers are lost.  A lost answer is made up for by reading back: the
new commit tells an own branch from a foreign one, and no pull request can be
open on a branch that was not there before.
-/
import StubSync.Proofs.Hosting.Forgetful

namespace StubSync

namespace GitHub

open Server

section Publishing

variable {config : GitHub} {policy : RetryPolicy} {server : Server} {branch found : String}

theorem serves_pause (span : Span) (before : Server) (reply : Unit) (after : Server)
    (hserves : Serves config policy branch found (.pause span) before reply after) :
    after = before :=
  hserves

/-- A call that only reads is answered truly in the end. -/
theorem call_shows_always (hserver : server.lost = 0) (request : Call)
    (hmethod : request.method = .get) (hconcerns : Concerns config branch request) :
    (call policy request).Always (Serves config policy branch found)
      (fun reply after =>
        Shows .call config server (request.finding config found) reply ∧ after = server) server := by
  have hends : EndsInTime (Serves config policy branch found) policy request
      (fun lost state => state = server.withLost lost)
      (fun reply after =>
        Shows .call config server (request.finding config found) reply ∧ after = server) := by
    rintro lost state reply later rfl hattempt
    rcases reads_of_attempts ((method_finding ..).trans hmethod) (hattempt hconcerns) with
      ⟨hlost, hleft, hlater⟩ | ⟨hlost, hshows, hlater⟩
    · exact Or.inl ⟨hlost, hleft, hlater⟩
    · exact Or.inr ⟨hlost, hshows, hlater.trans (withLost_self hserver)⟩
  refine call_repeated_always serves_pause hends ?_ (withLost_self hserver).symm
  rw [hmethod]
  decide

/-- A branch is gone once its deletion is answered, however often the answer
was lost before. -/
theorem deleteBranch_always (hserver : server.lost = 0) :
    (call policy (.deleteBranch branch)).Always (Serves config policy branch found)
      (fun _ after => after = server.without branch) server := by
  have hends : EndsInTime (Serves config policy branch found) policy (.deleteBranch branch)
      (fun lost state =>
        state = server.withLost lost ∨ state = (server.without branch).withLost lost)
      (fun _ after => after = server.without branch) := by
    intro lost state reply later hstate hattempt
    have hgone : (server.without branch).withLost 0 = server.without branch :=
      withLost_self hserver
    rcases hstate with rfl | rfl
    · rcases hattempt rfl with ⟨hlost, hleft, hlater⟩ | ⟨hlost, hlater⟩
      · exact Or.inl ⟨hlost, hleft, hlater⟩
      · exact Or.inr ⟨hlost, hlater.trans hgone⟩
    · rcases hattempt rfl with ⟨hlost, hleft, hlater⟩ | ⟨hlost, hlater⟩
      · refine Or.inl ⟨hlost, hleft, Or.inr ?_⟩
        rcases hlater with hlater | hlater
        · exact hlater
        · simpa using hlater
      · refine Or.inr ⟨hlost, hlater.trans ?_⟩
        simpa using hgone
  exact call_repeated_always serves_pause hends nofun (Or.inl (withLost_self hserver).symm)

theorem textField_of_at? {path : List String} {content : String} {value : Json}
    (hvalue : value.at? path = some (.text content)) (operation : String) :
    textField path operation value = .ok content := by
  simp [textField, hvalue]

/-- What is read of a commit or created as a tree changes nothing that is
shown. -/
theorem callForText_always {request : Call} {path : List String}
    (hrequest : (call policy request).Always (Serves config policy branch found)
      (fun _ after => after = server) server) :
    (callForText policy request path).Always (Serves config policy branch found)
      (fun _ after => after = server) server := by
  refine hrequest.bind ?_
  intro reply after hafter
  cases reply with
  | error error => exact hafter
  | ok value => exact hafter

theorem createTree_always (base : String) (changes : List FileChange) :
    (call policy (.createTree base changes)).Always (Serves config policy branch found)
      (fun _ after => after = server) server := by
  refine (call_once_always rfl server).mono ?_
  intro reply after hattempt
  rcases hattempt trivial with ⟨hafter, _⟩ | ⟨_, hafter, _⟩
  · exact hafter
  · exact hafter

theorem branchHead_always (hserver : server.lost = 0) :
    (branchHead policy branch).Always (Serves config policy branch found)
      (fun reply after => reply = .ok (server.branches branch) ∧ after = server) server := by
  refine (call_shows_always hserver (.readBranch branch) rfl rfl).bind ?_
  rintro reply after ⟨hshows, rfl⟩
  cases hbranch : after.branches branch with
  | some commit =>
      simp only [Call.finding, Shows, hbranch, carries_call_iff] at hshows
      obtain ⟨value, rfl, hvalue⟩ := hshows
      simp [textField_of_at? hvalue, Except.map]
  | none =>
      simp only [Call.finding, Shows, hbranch] at hshows
      obtain ⟨operation, message, rfl⟩ := hshows
      exact ⟨rfl, rfl⟩

/-- What is looked for is the pull request of the branch that is found. -/
theorem openPullOf_always (hserver : server.lost = 0) :
    (openPullOf config policy branch).Always (Serves config policy branch found)
      (fun reply after => reply = .ok (server.pulls found) ∧ after = server) server := by
  have hpage : (page policy "open" (some (config.headOf branch)) 1).Always
      (Serves config policy branch found)
      (fun reply after => reply = .ok (server.pulls found).toList ∧ after = server)
      server := by
    refine (call_shows_always hserver (.listPulls "open" (some (config.headOf branch)) 1)
      rfl ⟨rfl, rfl⟩).bind ?_
    rintro reply after ⟨hshows, rfl⟩
    obtain ⟨value, hreply, hvalue⟩ := hshows found rfl rfl rfl
    obtain rfl := Telling.toOption_eq_some_iff.1 hreply
    simp [hvalue]
  have hshort : (server.pulls found).toList.length < perPage :=
    Nat.lt_of_le_of_lt (Option.length_toList_le) (by decide)
  have hpages : (listPulls policy "open" (some (config.headOf branch))).Always
      (Serves config policy branch found)
      (fun reply after => reply = .ok (server.pulls found).toList ∧ after = server)
      server := by
    refine hpage.bind ?_
    rintro reply after ⟨rfl, rfl⟩
    simp [hshort]
  refine hpages.bind ?_
  rintro reply after ⟨rfl, rfl⟩
  cases hpull : after.pulls found <;> simp

/-- Creating a commit touches no branch, and a commit that is known of is
new. -/
theorem createCommit_always (hserver : server.lost = 0) (proposal : Proposal)
    (base : String) :
    (createCommit policy proposal base).Always (Serves config policy branch found)
      (fun reply after => server.SameHeads after ∧ ∀ id, reply = .ok id →
        server.IsFresh id ∧ ∃ tree,
          after = server.withCommit ⟨id, proposal.commitMessage, tree, base⟩) server := by
  have hbase : (callForText policy (.readCommit base) ["tree", "sha"]).Always
      (Serves config policy branch found) (fun _ after => after = server) server :=
    callForText_always
      ((call_shows_always hserver (.readCommit base) rfl trivial).mono fun _ _ hshows => hshows.2)
  refine hbase.bind ?_
  rintro baseTree after rfl
  cases baseTree with
  | error error => exact ⟨.refl after, nofun⟩
  | ok baseTree =>
      refine (callForText_always (createTree_always baseTree proposal.changes)).bind ?_
      rintro tree after rfl
      cases tree with
      | error error => exact ⟨.refl after, nofun⟩
      | ok tree =>
          refine (call_once_always rfl after).bind ?_
          intro reply later hattempt
          obtain ⟨id, hcreates⟩ := hattempt trivial
          rcases hcreates with ⟨rfl, hfails⟩ | ⟨hfresh, rfl, hdone | hlost⟩
          · obtain ⟨error, rfl⟩ := Telling.toOption_eq_none_iff.1 hfails
            exact ⟨.refl later, nofun⟩
          · obtain ⟨value, rfl, hvalue⟩ := carries_call_iff.1 hdone
            refine ⟨.refl after, fun created hcreated => ?_⟩
            rw [textField_of_at? hvalue] at hcreated
            cases hcreated
            exact ⟨hfresh, tree, rfl⟩
          · obtain ⟨error, rfl, _⟩ := hlost
            exact ⟨.refl after, nofun⟩

/-- Reading the branch back tells whether it was created: it then points at the
commit. -/
theorem settleBranch_always (hserver : server.lost = 0) (commit : String)
    (error : HostingError) :
    (settleBranch policy branch commit error).Always (Serves config policy branch found)
      (fun reply after => after = server ∧
        (reply = .ok () ↔ (error.isUnprocessable || error.isTransient) = true ∧
          server.branches branch = some commit)) server := by
  unfold settleBranch
  by_cases hasks : (error.isUnprocessable || error.isTransient) = true
  · rw [if_pos hasks]
    refine (branchHead_always hserver).bind ?_
    rintro reply after ⟨rfl, rfl⟩
    cases hbranch : after.branches branch with
    | none => simp
    | some head =>
        by_cases hhead : head = commit
        · simp [hhead, hasks]
        · simp [hhead]
  · rw [if_neg hasks]
    simp [hasks]

/-- A branch for a new commit is created, or everything stays as it is. -/
theorem createBranch_always (hserver : server.lost = 0) {commit : String}
    (hfresh : server.IsFresh commit) :
    (createBranch policy branch commit).Always (Serves config policy branch found)
      (fun reply after => match reply with
        | .ok () => server.branches branch = none ∧ after = server.withBranch branch commit
        | .error _ => after = server) server := by
  refine (call_once_always rfl server).bind ?_
  intro reply after hattempt
  rcases hattempt trivial with ⟨rfl, hfails⟩ | ⟨hnone, rfl, hdone | hlost⟩
  · obtain ⟨error, rfl⟩ := Telling.toOption_eq_none_iff.1 hfails
    refine (settleBranch_always hserver commit error).mono ?_
    rintro reply later ⟨rfl, hreply⟩
    cases reply with
    | ok _ => exact absurd (hreply.1 rfl).2 (hfresh branch)
    | error error => rfl
  · obtain ⟨value, hvalue⟩ := hdone
    obtain rfl := Telling.toOption_eq_some_iff.1 hvalue
    exact ⟨hnone, rfl⟩
  · obtain ⟨error, rfl, htransient⟩ := hlost
    have hcreated : (server.withBranch branch commit).branches branch = some commit := by
      simp [withBranch]
    have hbranched : (server.withBranch branch commit).lost = 0 := hserver
    refine (settleBranch_always hbranched commit error).mono ?_
    rintro reply later ⟨rfl, hreply⟩
    rw [hreply.2 ⟨by simp [htransient], hcreated⟩]
    exact ⟨hnone, rfl⟩

variable {proposal : Proposal}

theorem withdraw_always (hserver : server.lost = 0) (error : HostingError) :
    (withdraw policy proposal error).Always (Serves config policy proposal.branch found)
      (fun reply after => reply = .error error ∧ after = server.without proposal.branch)
      server := by
  refine (deleteBranch_always hserver).bind ?_
  rintro reply after rfl
  exact ⟨rfl, rfl⟩

/-- A pull request that was opened although its answer was lost is found by
looking for it, if it is looked for on its branch.  Otherwise the branch is
deleted. -/
theorem settlePull_always (hserver : server.lost = 0) (error : HostingError) :
    (settlePull config policy proposal error).Always (Serves config policy proposal.branch found)
      (fun reply after =>
        (reply = .error error ∧ after = server.without proposal.branch ∧
          (error.isTransient = true → server.pulls found = none)) ∨
        ∃ pull, server.pulls found = some pull ∧
          reply = .ok (publishedAs proposal pull) ∧ after = server) server := by
  unfold settlePull
  by_cases hasks : (error.isTransient || error.isUnprocessable) = true
  · rw [if_pos hasks]
    refine (openPullOf_always hserver).bind ?_
    rintro reply after ⟨rfl, rfl⟩
    cases hpull : after.pulls found with
    | some pull => exact Or.inr ⟨pull, rfl, rfl, rfl⟩
    | none =>
        refine (withdraw_always hserver error).mono ?_
        rintro reply later ⟨hreply, hlater⟩
        exact Or.inl ⟨hreply, hlater, fun _ => rfl⟩
  · rw [if_neg hasks]
    refine (withdraw_always hserver error).mono ?_
    rintro reply later ⟨hreply, hlater⟩
    refine Or.inl ⟨hreply, hlater, fun htransient => ?_⟩
    exact absurd (by simp [htransient]) hasks

/-- The pull request of a branch that has none is opened, or the branch is
deleted. -/
theorem finish_always (hserver : server.lost = 0)
    (hpull : server.pulls proposal.branch = none)
    (hfound : found = proposal.branch ∨ server.pulls found = none) :
    (finish config policy proposal).Always (Serves config policy proposal.branch found)
      (fun reply after => match reply with
        | .ok published => ∃ pull, published = publishedAs proposal pull ∧
            after = server.withPull proposal.branch pull
        | .error _ => after = server.without proposal.branch) server := by
  have hnothing : server.pulls found = none := by
    rcases hfound with rfl | hnone
    · exact hpull
    · exact hnone
  have hasked : (openPull config policy proposal).Always
      (Serves config policy proposal.branch found)
      (fun reply after =>
        (after = server ∧ ∃ error, reply = .error error) ∨
        ∃ pull, after = server.withPull proposal.branch pull ∧
          (reply = .ok pull ∨ ∃ error, reply = .error error ∧ error.isTransient = true))
      server := by
    refine (call_once_always rfl server).bind ?_
    intro reply after hattempt
    obtain ⟨pull, hcreates⟩ := hattempt trivial
    rcases hcreates with ⟨rfl, hfails⟩ | ⟨_, rfl, hdone | hlost⟩
    · obtain ⟨error, rfl⟩ := Telling.toOption_eq_none_iff.1 hfails
      exact Or.inl ⟨rfl, error, rfl⟩
    · obtain ⟨value, htold, hvalue⟩ := hdone
      obtain rfl := Telling.toOption_eq_some_iff.1 htold
      simp only [hvalue]
      exact Or.inr ⟨pull, rfl, Or.inl rfl⟩
    · obtain ⟨error, rfl, htransient⟩ := hlost
      exact Or.inr ⟨pull, rfl, Or.inr ⟨error, rfl, htransient⟩⟩
  refine hasked.bind ?_
  rintro reply after (⟨rfl, error, rfl⟩ | ⟨pull, rfl, rfl | ⟨error, rfl, htransient⟩⟩)
  · refine (settlePull_always hserver error).mono ?_
    rintro reply later (⟨rfl, hlater, _⟩ | ⟨pull, hsome, _, _⟩)
    · exact hlater
    · rw [hnothing] at hsome
      cases hsome
  · exact ⟨pull, rfl, rfl⟩
  · have hlater : (server.withPull proposal.branch pull).lost = 0 := hserver
    refine (settlePull_always hlater error).mono ?_
    by_cases hsame : found = proposal.branch
    · subst hsame
      have hopened : (server.withPull proposal.branch pull).pulls proposal.branch = some pull := by
        simp [withPull]
      rintro reply later (⟨_, _, hnone⟩ | ⟨told, hsome, rfl, rfl⟩)
      · have hcontra := hnone htransient
        rw [hopened] at hcontra
        cases hcontra
      · rw [hopened] at hsome
        cases hsome
        exact ⟨pull, rfl, rfl⟩
    · -- The pull request is looked for on another branch, so it is deleted with its own.
      have hmissed : (server.withPull proposal.branch pull).pulls found = none := by
        simpa [withPull, hsame] using hnothing
      rintro reply later (⟨rfl, rfl, _⟩ | ⟨told, hsome, _, _⟩)
      · exact without_withPull server proposal.branch pull
      · rw [hmissed] at hsome
        cases hsome

/-- What a server has after a proposal is published, and what was told of it:
the commit and its branch are new, and the pull request of the branch is its
only one. -/
structure Lands (before : Server) (proposal : Proposal) (commit : Commit) (pull : Pull)
    (published : Published) (after : Server) : Prop where
  message : commit.message = proposal.commitMessage
  fresh : before.IsFresh commit.id
  no_branch : before.branches proposal.branch = none
  created : after.branches =
    Function.update before.branches proposal.branch (some commit.id)
  opened : after.pulls = Function.update before.pulls proposal.branch (some pull)
  commits : after.commits = commit :: before.commits
  told : published = ⟨pull.number, proposal.branch, pull.url⟩

/-- All of a proposal is there, or nothing of it. -/
inductive AllOrNothing (before : Server) (proposal : Proposal) :
    Except HostingError Published → Server → Prop where
  | all {commit : Commit} {pull : Pull} {published : Published} {after : Server}
      (hlands : Lands before proposal commit pull published after) :
      AllOrNothing before proposal (.ok published) after
  | nothing (error : HostingError) {after : Server} (hsame : before.SameHeads after) :
      AllOrNothing before proposal (.error error) after

theorem publish_always (hsound : server.IsSound) (hserver : server.lost = 0)
    (proposal : Proposal) (hfound : found = proposal.branch ∨ server.pulls found = none) :
    (publish config policy proposal).Always (Serves config policy proposal.branch found)
      (AllOrNothing server proposal) server := by
  have hbase : (baseOf config policy proposal).Always (Serves config policy proposal.branch found)
      (fun _ after => after = server) server := by
    unfold baseOf
    cases proposal.baseCommit with
    | some commit => rfl
    | none =>
        refine (call_shows_always hserver (.readBase config.baseBranch) rfl trivial).bind ?_
        rintro reply after ⟨_, rfl⟩
        cases reply with
        | error error => rfl
        | ok value => rfl
  refine hbase.bind ?_
  rintro base server rfl
  cases base with
  | error error => exact .nothing error (.refl server)
  | ok base =>
      refine (createCommit_always hserver proposal base).bind ?_
      rintro created middle ⟨hsame, hcreated⟩
      cases created with
      | error error => exact .nothing error hsame
      | ok id =>
          obtain ⟨hfresh, tree, rfl⟩ := hcreated id rfl
          let committed := server.withCommit ⟨id, proposal.commitMessage, tree, base⟩
          have hcommitted : committed.IsSound := hsound
          have hanswers : committed.lost = 0 := hserver
          refine (createBranch_always hanswers hfresh).bind ?_
          intro branched later hbranched
          cases branched with
          | error error =>
              obtain rfl : later = committed := hbranched
              exact .nothing error hsame
          | ok _ =>
              obtain ⟨hnone, rfl⟩ := hbranched
              have hpull := hcommitted.pulls_eq_none hnone
              have hbranched : (committed.withBranch proposal.branch id).lost = 0 := hserver
              refine (finish_always hbranched hpull hfound).mono ?_
              intro reply last hlast
              cases reply with
              | ok published =>
                  obtain ⟨pull, rfl, rfl⟩ := hlast
                  exact .all ⟨rfl, hfresh, hnone, rfl, rfl, rfl, rfl⟩
              | error error =>
                  -- The branch was new, so deleting it leaves what was there before.
                  obtain rfl : last = committed :=
                    hlast.trans (without_withBranch hcommitted hnone id)
                  exact .nothing error hsame

/-- Publishing is atomic, whatever answers are lost: it ends with the new branch
and its pull request, and tells of that pull request, or it ends with an error
and with the branches and open pull requests that were there before.  Where the
name of the branch has a `+`, the pull request is looked for under another name,
which must not have one. -/
theorem publish_atomic {interface : Address} (hserved : config.IsServedAt interface)
    {σ : Type} (answer : (question : Http.Question) → σ → Http.Reply question × σ)
    (view : σ → Server)
    (hanswer : ∀ question state,
      Handles config policy interface question (view state) (answer question state).1
        (view (answer question state).2))
    {start : σ} (hsound : (view start).IsSound) (hstart : (view start).lost = 0)
    (proposal : Proposal) (hname : config.IsNameable proposal.branch)
    (hother : '+' ∈ proposal.branch.toList →
      (view start).pulls (Http.blanked proposal.branch) = none) :
    AllOrNothing (view start) proposal
      (((publish config policy proposal).interpret config.overWeb).run answer start).1
      (view (((publish config policy proposal).interpret config.overWeb).run answer start).2) := by
  have hfound : Http.blanked proposal.branch = proposal.branch ∨
      (view start).pulls (Http.blanked proposal.branch) = none := by
    by_cases hplus : '+' ∈ proposal.branch.toList
    · exact Or.inr (hother hplus)
    · exact Or.inl (Http.blanked_eq_self_iff.2 hplus)
  rw [Interaction.run_interpret]
  exact Interaction.Always.run (serves_of_handles hserved hname hanswer)
    (publish_always hsound hstart proposal hfound)

end Publishing

namespace AtomicityExample

def config : GitHub :=
  ⟨"https://api.example.com", "octo/stubs", "token", "main"⟩

def interface : Address where
  isSecure := true
  host := "api.example.com"
  path := [""]

theorem isServedAt_interface : config.IsServedAt interface where
  apiUrl := by decide
  reads := by decide +kernel
  repository := by decide

def policy : RetryPolicy := { maxRetries := 2 }

def proposal : Proposal where
  package := "foo"
  action := .review "a bump"
  dedupKey := ""
  branch := "stubsabot/foo/bump-1.1"
  title := "Bump foo"
  commitMessage := "Bump foo to 1.1"
  body := ""
  changes := [⟨"stubs/foo/METADATA.toml", "version = \"1.1\"\n"⟩]
  diff := ""
  baseCommit := none

theorem isNameable_branch : config.IsNameable proposal.branch where
  path := by decide
  query := List.all_eq_true.1 (by decide)
  owner := by decide

def start : Forgetful where
  branches := [("main", "base")]
  heads := []
  commits := []
  lost := 0

theorem start_isSound : start.view.IsSound := by
  intro branch pull hpull
  simp [start, Forgetful.view] at hpull

/-- Calls are made at most twice. -/
def twice : RetryPolicy := { maxRetries := 1 }

/-- Publish a proposal on the server that is asked over the web. -/
def published (proposal : Proposal) (start : Forgetful) :
    Except HostingError Published × Forgetful :=
  ((publish config twice proposal).interpret config.overWeb).run
    (Forgetful.answer config twice interface) start

/-- The proposal of a version with a local label. -/
def labelled : Proposal :=
  { proposal with branch := "stubsabot/foo/bump-1.1+abc" }

theorem isNameable_labelled : config.IsNameable labelled.branch where
  path := by decide
  query := List.all_eq_true.1 (by decide)
  owner := by decide

/-- Every answer is lost that may be.  The pull request is told of all the same, or it
is not found again, and nothing of it stays. -/
theorem publish_forgetful :
    start.view.IsSound ∧ start.view.lost = 0 ∧
      (config.IsNameable proposal.branch ∧ config.IsNameable labelled.branch) ∧
      (published proposal start).1.toOption =
        some ⟨7, "stubsabot/foo/bump-1.1", "https://example.com/pull/7"⟩ ∧
      (published labelled start).1.toOption = none ∧
      AllOrNothing start.view proposal (published proposal start).1
        (published proposal start).2.view ∧
      AllOrNothing start.view labelled (published labelled start).1
        (published labelled start).2.view :=
  ⟨start_isSound, rfl, ⟨isNameable_branch, isNameable_labelled⟩, by decide +kernel,
    by decide +kernel,
    publish_atomic isServedAt_interface (Forgetful.answer config twice interface)
      Forgetful.view (Forgetful.answer_handles config twice interface) start_isSound rfl
      proposal isNameable_branch (fun _ => rfl),
    publish_atomic isServedAt_interface (Forgetful.answer config twice interface)
      Forgetful.view (Forgetful.answer_handles config twice interface) start_isSound rfl
      labelled isNameable_labelled (fun _ => rfl)⟩

/-- A server that loses no answer, and refuses pull requests. -/
def unwilling : Forgetful :=
  { start with loses := false, opens := false }

/-- The proposal on top of a commit that is known. -/
def based : Proposal :=
  { proposal with baseCommit := some "base" }

/-- A proposal for a stub whose name ends the paths that it is put into. -/
def hashed : Proposal :=
  { based with package := "foo#1", branch := "stubsabot/foo#1/bump-1.1" }

/-- The requests that are sent when a proposal is published. -/
def sent (proposal : Proposal) (start : Forgetful) : List Http.Sent :=
  Http.sends (((publish config twice proposal).interpret config.overWeb).trace
    (Forgetful.answer config twice interface) start)

/-- The methods and targets of these requests. -/
def asked (proposal : Proposal) (start : Forgetful) : List (String × String) :=
  (sent proposal start).map fun sent =>
    (sent.request.method.name, sent.request.address.target)

/-- Where the name of the branch is cut off in an address, another branch is deleted
in its place. -/
theorem publish_leaves_branch :
    config.IsServedAt interface ∧
      (∀ question server, Handles config twice interface question server.view
        (Forgetful.answer config twice interface question server).1
        (Forgetful.answer config twice interface question server).2.view) ∧
      unwilling.view.IsSound ∧ unwilling.view.lost = 0 ∧
      (asked hashed unwilling).getLast? =
        some ("DELETE", "/repos/octo/stubs/git/refs/heads/stubsabot/foo") ∧
      ¬ AllOrNothing unwilling.view hashed (published hashed unwilling).1
        (published hashed unwilling).2.view := by
  have hrun : (published hashed unwilling).1.toOption = none ∧
      (published hashed unwilling).2.view.branches hashed.branch ≠
        unwilling.view.branches hashed.branch ∧
      (asked hashed unwilling).getLast? =
        some ("DELETE", "/repos/octo/stubs/git/refs/heads/stubsabot/foo") := by
    decide +kernel
  obtain ⟨hfails, hstays, hlast⟩ := hrun
  refine ⟨isServedAt_interface, Forgetful.answer_handles config twice interface, start_isSound,
    rfl, hlast, ?_⟩
  intro hall
  generalize (published hashed unwilling).1 = result at hfails hall
  cases hall with
  | all hlands => cases hfails
  | nothing error hsame => exact hstays (congrFun hsame.1 hashed.branch)

end AtomicityExample

end GitHub

end StubSync
