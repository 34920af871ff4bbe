/-
When publishing deletes a branch that has an open pull request.

Here any answer may be lost, refused or unreadable, and nothing bounds how
often; only what a readable answer tells is true.  The branch is new when its
pull request is asked for, so it has a pull request afterwards only if that
call was carried out.  A deletion that meets the pull request has then been
preceded by an unreadable answer to the call, and by no readable listing of the
branch.
-/
import StubSync.Proofs.Hosting.Atomicity
import StubSync.Proofs.Hosting.Mumbling

namespace StubSync

namespace GitHub

open Interaction (Asked alwaysTraced_pure answering)

open Server

section Publishing

variable {config : GitHub} {policy : RetryPolicy} {server : Server} {branch : String}

/-- The question belongs to the end of publishing, when the branch is there. -/
def Closes : Question → Prop
  | .attempt (.openPull ..) | .attempt (.listPulls ..) | .attempt (.deleteBranch _) => True
  | _ => False

/-- Nothing has been asked yet about a pull request of the branch. -/
def Prepares (asked : List (Asked Reply Server)) : Prop :=
  ∀ entry ∈ asked, ¬ Closes entry.question

theorem prepares_nil : Prepares [] :=
  nofun

theorem Prepares.append {first second : List (Asked Reply Server)} (hfirst : Prepares first)
    (hsecond : Prepares second) : Prepares (first ++ second) :=
  List.forall_mem_append.2 ⟨hfirst, hsecond⟩

theorem prepares_attempt (request : Call) (hrequest : ¬ Closes (.attempt request))
    (state : Server) (reply : Except HostingError Json) :
    Prepares [⟨.attempt request, state, reply⟩] := by
  intro entry hentry
  rw [List.mem_singleton.1 hentry]
  exact hrequest

theorem IsCall.prepares {inv : Server → Prop} {request : Call}
    {reply : Except HostingError Json} {asked : List (Asked Reply Server)}
    (hcall : IsCall (Mumbles config branch) inv request reply asked)
    (hrequest : ¬ Closes (.attempt request)) : Prepares asked := by
  intro entry hentry hcloses
  obtain ⟨_, ⟨_, hpause⟩ | ⟨other, hother, _⟩⟩ := hcall.attempts entry hentry
  · rw [hpause] at hcloses
    exact hcloses
  · rw [hother] at hcloses
    exact hrequest hcloses

/-- A call that changes nothing, however often it is made. -/
theorem call_still_traced (request : Call) (hconcerns : Concerns config branch request)
    (hstill : ∀ before reply after, Garbles .call config before reply after request →
      after = before) :
    (call policy request).AlwaysTraced (Mumbles config branch)
      (fun reply after asked => after = server ∧
        IsCall (Mumbles config branch) (fun state => state = server) request reply asked) server := by
  refine call_traced ?_ ?_ rfl
  · rintro _ state _ later rfl hpaused
    exact hpaused
  · rintro state reply later rfl hattempt
    exact hstill state reply later (hattempt hconcerns)

theorem callForText_still_traced (request : Call) {path : List String}
    (hrequest : ¬ Closes (.attempt request)) (hconcerns : Concerns config branch request)
    (hstill : ∀ before reply after, Garbles .call config before reply after request →
      after = before) :
    (callForText policy request path).AlwaysTraced (Mumbles config branch)
      (fun _ after asked => after = server ∧ Prepares asked) server := by
  refine (call_still_traced request hconcerns hstill).bind ?_
  rintro reply after asked ⟨rfl, hcall⟩
  cases reply with
  | error error => simpa using hcall.prepares hrequest
  | ok value => simpa using hcall.prepares hrequest

theorem at?_of_textField {path : List String} {operation content : String} {value : Json}
    (hfield : textField path operation value = .ok content) :
    value.at? path = some (.text content) := by
  unfold textField at hfield
  split at hfield
  · cases hfield
  · rename_i hvalue
    cases hfield
    exact hvalue
  · cases hfield

theorem baseOf_traced (proposal : Proposal) :
    (baseOf config policy proposal).AlwaysTraced (Mumbles config branch)
      (fun _ after asked => after = server ∧ Prepares asked) server := by
  unfold baseOf
  cases proposal.baseCommit with
  | some commit => exact ⟨rfl, prepares_nil⟩
  | none =>
      refine (call_still_traced (.readBase config.baseBranch) trivial fun _ _ _ hafter =>
        hafter).bind ?_
      rintro reply after asked ⟨rfl, hcall⟩
      cases reply with
      | error error => simpa using hcall.prepares id
      | ok value => simpa using hcall.prepares id

/-- A commit that is known of is new, and creating it touches no branch. -/
theorem createCommit_traced (proposal : Proposal) (base : String) :
    (createCommit policy proposal base).AlwaysTraced (Mumbles config branch)
      (fun reply after asked => Prepares asked ∧ server.SameHeads after ∧
        ∀ id, reply = .ok id → server.IsFresh id) server := by
  refine (callForText_still_traced (.readCommit base) id trivial fun _ _ _ hafter =>
    hafter).bind ?_
  rintro baseTree after asked ⟨rfl, hbase⟩
  cases baseTree with
  | error error => exact ⟨hbase.append prepares_nil, .refl after, nofun⟩
  | ok baseTree =>
      refine (callForText_still_traced (.createTree baseTree proposal.changes) id trivial
        fun _ _ _ hafter => hafter).bind ?_
      rintro tree after more ⟨rfl, htree⟩
      cases tree with
      | error error => exact ⟨hbase.append (htree.append prepares_nil), .refl after, nofun⟩
      | ok tree =>
          refine Interaction.AlwaysTraced.bind (attempt_traced _ after) ?_
          rintro reply later last ⟨hattempt, rfl⟩
          have hcreates := hattempt trivial
          have hcommit := prepares_attempt
            (.createCommit proposal.commitMessage tree base) id after reply
          have hasked := hbase.append (htree.append (hcommit.append prepares_nil))
          have hsame : after.SameHeads later := by
            rcases hcreates with ⟨rfl, _⟩ | ⟨_, _, rfl, _⟩
            · exact .refl later
            · exact .refl after
          cases reply with
          | error error => exact ⟨hasked, hsame, nofun⟩
          | ok value =>
              refine ⟨hasked, hsame, fun id hid => ?_⟩
              have hcarries : Telling.call.Carries ["sha"] id (.ok value) :=
                ⟨value, rfl, at?_of_textField hid⟩
              rcases hcreates with ⟨_, hnone⟩ | ⟨created, hfresh, _, htold⟩
              · exact absurd hcarries (hnone id)
              · rw [htold id hcarries]
                exact hfresh

theorem branchHead_traced :
    (branchHead policy branch).AlwaysTraced (Mumbles config branch)
      (fun reply after asked => after = server ∧ Prepares asked ∧
        ∀ head, reply = .ok (some head) → server.branches branch = some head) server := by
  refine (call_still_traced (.readBranch branch) rfl fun _ _ _ hgarbles => hgarbles.1).bind ?_
  rintro reply after asked ⟨rfl, hcall⟩
  have hasked : Prepares (asked ++ []) := (hcall.prepares id).append prepares_nil
  split
  · rename_i value
    refine ⟨rfl, hasked, fun head hhead => ?_⟩
    obtain ⟨_, _, rfl, hattempt, _⟩ := hcall.answered
    cases hfield : textField ["object", "sha"] (Call.readBranch branch).operation value with
    | error error =>
        rw [hfield] at hhead
        cases hhead
    | ok content =>
        rw [hfield] at hhead
        cases hhead
        exact (hattempt rfl).2 head ⟨value, rfl, at?_of_textField hfield⟩
  · exact ⟨rfl, hasked, nofun⟩
  · exact ⟨rfl, hasked, nofun⟩

theorem settleBranch_traced (commit : String) (error : HostingError) :
    (settleBranch policy branch commit error).AlwaysTraced (Mumbles config branch)
      (fun reply after asked => after = server ∧ Prepares asked ∧
        (reply = .ok () → server.branches branch = some commit)) server := by
  unfold settleBranch
  split
  · refine branchHead_traced.bind ?_
    rintro reply after asked ⟨rfl, hasked, hhead⟩
    have hasked := hasked.append prepares_nil
    split
    · rename_i head
      split
      · rename_i hsame
        exact ⟨rfl, hasked, fun _ => hsame ▸ hhead head rfl⟩
      · exact ⟨rfl, hasked, nofun⟩
    · exact ⟨rfl, hasked, nofun⟩
  · exact ⟨rfl, prepares_nil, nofun⟩

/-- A branch for a new commit has no pull request yet. -/
theorem createBranch_traced (hsound : server.IsSound) {commit : String}
    (hfresh : server.IsFresh commit) :
    (createBranch policy branch commit).AlwaysTraced (Mumbles config branch)
      (fun reply after asked => Prepares asked ∧
        (reply = .ok () → after.pulls branch = none)) server := by
  refine Interaction.AlwaysTraced.bind (attempt_traced _ server) ?_
  rintro reply after asked ⟨hattempt, rfl⟩
  have hcreates := hattempt trivial
  have hasked := prepares_attempt (.createBranch branch commit) id server reply
  cases reply with
  | ok value =>
      refine ⟨hasked.append prepares_nil, fun _ => ?_⟩
      rcases hcreates with ⟨_, hfails⟩ | ⟨hnone, rfl⟩
      · cases hfails
      · exact hsound.pulls_eq_none hnone
  | error error =>
      refine (settleBranch_traced commit error).mono ?_
      rintro result later more ⟨rfl, hmore, hcreated⟩
      refine ⟨hasked.append hmore, fun hresult => ?_⟩
      rcases hcreates with ⟨rfl, _⟩ | ⟨hnone, rfl⟩
      · exact absurd (hcreated hresult) (hfresh branch)
      · exact hsound.pulls_eq_none hnone

/-- How the pull request of a proposal is asked for. -/
def openingOf (config : GitHub) (proposal : Proposal) : Call :=
  .openPull proposal.title proposal.branch config.baseBranch proposal.body

/-- How the open pull request of a branch is looked for. -/
def lookupOf (config : GitHub) (branch : String) : Call :=
  .listPulls "open" (some (config.headOf branch)) 1

/-- The error that an answer to the creation of a pull request comes down
to. -/
def openingError? : Except HostingError Json → Option HostingError
  | .error error => some error
  | .ok value =>
      match Pull.ofJson? value with
      | some _ => none
      | none => some (unexpected "create pull request")

/-- The open pull request of the branch has been looked for. -/
def LooksFor {σ : Type} (config : GitHub) (branch : String) (asked : List (Asked Reply σ)) :
    Prop :=
  ∃ state reply, ⟨.attempt (lookupOf config branch), state, reply⟩ ∈ asked

/-- No listing of the open pull requests of the branch could be read. -/
def Unheard {σ : Type} (config : GitHub) (branch : String) (asked : List (Asked Reply σ)) :
    Prop :=
  ∀ state value, ⟨.attempt (lookupOf config branch), state, .ok value⟩ ∈ asked →
    Json.listOf? Pull.ofJson? value = none

/-- How the pull request of a proposal comes to be overlooked: the answer to
its creation is no pull request, and it is not looked for or no answer says
what there is. -/
structure Overlooks (config : GitHub) (proposal : Proposal) (asked : List (Asked Reply Server)) :
    Prop where
  opened : ∃ state reply error, ⟨.attempt (openingOf config proposal), state, reply⟩ ∈ asked ∧
    state.pulls proposal.branch = none ∧ openingError? reply = some error ∧
    ((error.isTransient || error.isUnprocessable) = true → LooksFor config proposal.branch asked)
  unheard : Unheard config proposal.branch asked

theorem Unheard.append {σ : Type} {branch : String} {first second : List (Asked Reply σ)}
    (hfirst : Unheard config branch first) (hsecond : Unheard config branch second) :
    Unheard config branch (first ++ second) := by
  intro state value hmem
  rcases List.mem_append.1 hmem with hmem | hmem
  · exact hfirst state value hmem
  · exact hsecond state value hmem

theorem Prepares.unheard {asked : List (Asked Reply Server)} (hasked : Prepares asked)
    (branch : String) : Unheard config branch asked :=
  fun _ _ hmem => (hasked _ hmem trivial).elim

theorem Overlooks.after_prepares {proposal : Proposal} {first second : List (Asked Reply Server)}
    (hfirst : Prepares first) (hsecond : Overlooks config proposal second) :
    Overlooks config proposal (first ++ second) where
  opened := by
    obtain ⟨state, reply, error, hmem, hnone, herror, hlooks⟩ := hsecond.opened
    refine ⟨state, reply, error, List.mem_append_right first hmem, hnone, herror, fun hasks => ?_⟩
    obtain ⟨seen, answer, hlook⟩ := hlooks hasks
    exact ⟨seen, answer, List.mem_append_right first hlook⟩
  unheard := (hfirst.unheard proposal.branch).append hsecond.unheard

/-- Something is to be deleted while the branch has an open pull request. -/
def Endangers (branch : String) (asked : List (Asked Reply Server)) : Prop :=
  ∃ entry ∈ asked, (∃ other, entry.question = .attempt (.deleteBranch other)) ∧
    entry.state.pulls branch ≠ none

theorem endangers_append {branch : String} {first second : List (Asked Reply Server)} :
    Endangers branch (first ++ second) ↔ Endangers branch first ∨ Endangers branch second := by
  simp only [Endangers, List.mem_append, or_and_right, exists_or]

theorem Prepares.not_endangers {asked : List (Asked Reply Server)} (hasked : Prepares asked)
    (branch : String) : ¬ Endangers branch asked := by
  rintro ⟨entry, hentry, ⟨other, hdelete⟩, _⟩
  refine hasked entry hentry ?_
  rw [hdelete]
  trivial

/-- A call other than a deletion endangers nothing. -/
theorem IsCall.not_endangers {inv : Server → Prop} {request : Call}
    {reply : Except HostingError Json} {asked : List (Asked Reply Server)}
    (hcall : IsCall (Mumbles config branch) inv request reply asked)
    (hsafe : ∀ other, request = .deleteBranch other →
      ∀ state, inv state → state.pulls branch = none) :
    ¬ Endangers branch asked := by
  rintro ⟨entry, hentry, ⟨deleted, hdelete⟩, hopen⟩
  obtain ⟨hinv, ⟨_, hpause⟩ | ⟨other, hother, _⟩⟩ := hcall.attempts entry hentry
  · rw [hpause] at hdelete
    cases hdelete
  · rw [hother] at hdelete
    exact hopen (hsafe deleted (Question.attempt.inj hdelete) _ hinv)

/-- What looking for the pull request of a branch comes down to: the truth, or no
listing that could be read. -/
structure LooksUp {α : Type} (config : GitHub) (server : Server) (branch : String) (truth : α)
    (reply : Except HostingError α) (after : Server) (asked : List (Asked Reply Server)) :
    Prop where
  same : after = server
  safe : ¬ Endangers branch asked
  looks : LooksFor config branch asked
  told : ∀ found, reply = .ok found → found = truth
  unheard : ∀ error, reply = .error error → Unheard config branch asked

/-- What is made of the answer afterwards is no question. -/
theorem LooksUp.conclude {α β : Type} {branch : String} {truth : α} {other : β}
    {reply : Except HostingError α} {conclusion : Except HostingError β} {after : Server}
    {asked : List (Asked Reply Server)}
    (hfound : LooksUp config server branch truth reply after asked)
    (hok : ∀ found, reply = .ok found → conclusion = .ok other)
    (herror : ∀ error, reply = .error error → conclusion = .error error) :
    LooksUp config server branch other conclusion after (asked ++ []) := by
  rw [List.append_nil]
  refine ⟨hfound.same, hfound.safe, hfound.looks, ?_, ?_⟩
  · intro found hconclusion
    cases reply with
    | error error =>
        rw [herror error rfl] at hconclusion
        cases hconclusion
    | ok first =>
        rw [hok first rfl] at hconclusion
        exact (Except.ok.inj hconclusion).symm
  · intro error hconclusion
    cases reply with
    | error first => exact hfound.unheard first rfl
    | ok first =>
        rw [hok first rfl] at hconclusion
        cases hconclusion

theorem page_traced :
    (page policy "open" (some (config.headOf branch)) 1).AlwaysTraced (Mumbles config branch)
      (LooksUp config server branch (server.pulls branch).toList) server := by
  refine (call_still_traced (lookupOf config branch) ⟨rfl, rfl⟩ fun _ _ _ hgarbles =>
    hgarbles.1).bind ?_
  rintro reply after asked ⟨rfl, hcall⟩
  obtain ⟨_, _, rfl, hattempt, hmem⟩ := hcall.answered
  have htrue := (hattempt ⟨rfl, rfl⟩).2
  have hsafe : ¬ Endangers branch asked := hcall.not_endangers nofun
  have hlooks : LooksFor config branch asked := ⟨_, _, hmem⟩
  have hunheard : (∀ value, reply = .ok value → Json.listOf? Pull.ofJson? value = none) →
      Unheard config branch asked := by
    intro hnone state value hvalue
    rcases hcall.reply_of_mem hvalue with hreply | hlost
    · exact hnone value hreply.symm
    · exact absurd hlost (not_isLost_ok value)
  cases reply with
  | error error =>
      rw [alwaysTraced_pure, List.append_nil]
      exact ⟨rfl, hsafe, hlooks, nofun, fun _ _ => hunheard nofun⟩
  | ok value =>
      cases hpulls : Json.listOf? Pull.ofJson? value with
      | none =>
          have hvalue : Unheard config branch asked := by
            refine hunheard ?_
            rintro _ ⟨rfl⟩
            exact hpulls
          simp only [hpulls]
          rw [alwaysTraced_pure, List.append_nil]
          exact ⟨rfl, hsafe, hlooks, nofun, fun _ _ => hvalue⟩
      | some pulls =>
          have htold := htrue branch value pulls rfl rfl rfl rfl hpulls
          simp only [hpulls]
          rw [alwaysTraced_pure, List.append_nil]
          refine ⟨rfl, hsafe, hlooks, ?_, nofun⟩
          rintro _ ⟨rfl⟩
          exact htold

/-- A branch has at most one open pull request, so its listing has one page. -/
theorem openPullOf_traced :
    (openPullOf config policy branch).AlwaysTraced (Mumbles config branch)
      (LooksUp config server branch (server.pulls branch)) server := by
  have hpages : (listPulls policy "open" (some (config.headOf branch))).AlwaysTraced
      (Mumbles config branch) (LooksUp config server branch (server.pulls branch).toList) server := by
    refine page_traced.bind ?_
    intro reply after asked hfound
    cases reply with
    | error error => exact hfound.conclude nofun fun _ herror => herror
    | ok pulls =>
        have hpulls := hfound.told pulls rfl
        have hshort : pulls.length < perPage := by
          rw [hpulls]
          exact Nat.lt_of_le_of_lt Option.length_toList_le (by decide)
        simp only [hshort, ↓reduceIte]
        exact hfound.conclude (fun _ _ => by rw [hpulls]) nofun
  refine hpages.bind ?_
  intro reply after asked hfound
  cases reply with
  | error error => exact hfound.conclude nofun fun _ herror => by rw [Except.error.inj herror]
  | ok pulls =>
      have hhead : pulls.head? = server.pulls branch := by
        rw [hfound.told pulls rfl]
        cases server.pulls branch <;> rfl
      exact hfound.conclude (fun _ _ => by rw [hhead]) nofun

/-- The deletion is the only thing asked for, however often. -/
theorem withdraw_traced (proposal : Proposal) (error : HostingError) :
    (withdraw policy proposal error).AlwaysTraced (Mumbles config proposal.branch)
      (fun _ _ asked => Unheard config proposal.branch asked ∧
        (server.pulls proposal.branch = none → ¬ Endangers proposal.branch asked)) server := by
  let inv : Server → Prop := fun state =>
    server.pulls proposal.branch = none → state.pulls proposal.branch = none
  have hcall : (call policy (.deleteBranch proposal.branch)).AlwaysTraced (Mumbles config proposal.branch)
      (fun reply after asked => inv after ∧
        IsCall (Mumbles config proposal.branch) inv (.deleteBranch proposal.branch) reply asked) server := by
    refine call_traced ?_ ?_ id
    · rintro _ state _ later hstate rfl
      exact hstate
    · intro state reply later hstate hattempt
      rcases hattempt rfl with rfl | rfl
      · exact hstate
      · intro _
        simp [without]
  refine hcall.bind ?_
  rintro reply after asked ⟨_, hcall⟩
  have hunheard : Unheard config proposal.branch asked := by
    intro state value hmem
    obtain ⟨_, ⟨_, hpause⟩ | ⟨_, hother, _⟩⟩ := hcall.attempts _ hmem
    · cases hpause
    · cases hother
  have hsafe : server.pulls proposal.branch = none → ¬ Endangers proposal.branch asked :=
    fun hnone => hcall.not_endangers fun _ _ state hstate => hstate hnone
  simpa using ⟨hunheard, hsafe⟩

/-- A pull request is found if a listing can be read; what is deleted after such
a listing has none. -/
theorem settlePull_traced (proposal : Proposal) (error : HostingError) :
    (settlePull config policy proposal error).AlwaysTraced (Mumbles config proposal.branch)
      (fun _ _ asked => Endangers proposal.branch asked →
        Unheard config proposal.branch asked ∧
        ((error.isTransient || error.isUnprocessable) = true →
          LooksFor config proposal.branch asked)) server := by
  unfold settlePull
  by_cases hasks : (error.isTransient || error.isUnprocessable) = true
  · rw [if_pos hasks]
    refine openPullOf_traced.bind ?_
    intro reply after asked hfound
    obtain rfl := hfound.same
    obtain ⟨seen, answer, hlook⟩ := hfound.looks
    have hlooks : ∀ more, LooksFor config proposal.branch (asked ++ more) :=
      fun more => ⟨seen, answer, List.mem_append_left more hlook⟩
    cases reply with
    | error reason =>
        refine (withdraw_traced proposal error).mono ?_
        rintro result later more ⟨hmore, _⟩ _
        exact ⟨(hfound.unheard reason rfl).append hmore, fun _ => hlooks more⟩
    | ok found =>
        have htold := hfound.told found rfl
        cases found with
        | some pull =>
            intro hendangers
            rw [List.append_nil] at hendangers
            exact absurd hendangers hfound.safe
        | none =>
            refine (withdraw_traced proposal error).mono ?_
            rintro result later more ⟨_, hsafe⟩ hendangers
            rcases endangers_append.1 hendangers with hendangers | hendangers
            · exact absurd hendangers hfound.safe
            · exact absurd hendangers (hsafe htold.symm)
  · rw [if_neg hasks]
    refine (withdraw_traced proposal error).mono ?_
    rintro reply after asked ⟨hunheard, _⟩ _
    exact ⟨hunheard, fun h => absurd h hasks⟩

theorem finish_traced (proposal : Proposal) (hnone : server.pulls proposal.branch = none) :
    (finish config policy proposal).AlwaysTraced (Mumbles config proposal.branch)
      (fun _ _ asked => Endangers proposal.branch asked → Overlooks config proposal asked)
      server := by
  have hopening : (openPull config policy proposal).AlwaysTraced (Mumbles config proposal.branch)
      (fun reply _ asked => ∃ answer,
        asked = [⟨.attempt (openingOf config proposal), server, answer⟩] ∧
          ∀ error, reply = .error error → openingError? answer = some error) server := by
    refine Interaction.AlwaysTraced.bind (attempt_traced (openingOf config proposal) server) ?_
    rintro answer after asked ⟨_, rfl⟩
    cases answer with
    | error error => exact ⟨.error error, rfl, fun _ herror => by rw [← Except.error.inj herror]; rfl⟩
    | ok value =>
        cases hpull : Pull.ofJson? value with
        | some pull =>
            simp only [hpull]
            exact ⟨.ok value, rfl, nofun⟩
        | none =>
            simp only [hpull]
            refine ⟨.ok value, rfl, fun error herror => ?_⟩
            simp only [openingError?, hpull]
            rw [← Except.error.inj herror]
            rfl
  refine hopening.bind ?_
  rintro reply after asked ⟨answer, rfl, hreply⟩
  have hsafe : ¬ Endangers proposal.branch
      [⟨.attempt (openingOf config proposal), server, answer⟩] := by
    rintro ⟨entry, hentry, ⟨_, hdelete⟩, _⟩
    rw [List.mem_singleton.1 hentry] at hdelete
    cases hdelete
  cases reply with
  | ok pull =>
      intro hendangers
      exact absurd hendangers hsafe
  | error error =>
      refine (settlePull_traced proposal error).mono ?_
      intro result later more hmore hendangers
      rcases endangers_append.1 hendangers with hendangers | hendangers
      · exact absurd hendangers hsafe
      · obtain ⟨hunheard, hlooks⟩ := hmore hendangers
        refine ⟨⟨server, answer, error, List.mem_cons_self, hnone, hreply error rfl, ?_⟩, ?_⟩
        · intro hasks
          obtain ⟨seen, told, hlook⟩ := hlooks hasks
          exact ⟨seen, told, List.mem_cons_of_mem _ hlook⟩
        · refine Unheard.append ?_ hunheard
          intro state value hmem
          cases List.mem_singleton.1 hmem

theorem publish_traced (hsound : server.IsSound) (proposal : Proposal) :
    (publish config policy proposal).AlwaysTraced (Mumbles config proposal.branch)
      (fun _ _ asked => Endangers proposal.branch asked → Overlooks config proposal asked)
      server := by
  refine (baseOf_traced proposal).bind ?_
  rintro base after first ⟨rfl, hfirst⟩
  have hends : ∀ {asked}, Prepares asked → Endangers proposal.branch asked →
      Overlooks config proposal asked :=
    fun hasked hendangers => absurd hendangers (hasked.not_endangers proposal.branch)
  cases base with
  | error error => exact hends (hfirst.append prepares_nil)
  | ok base =>
      refine (createCommit_traced proposal base).bind ?_
      rintro created middle second ⟨hsecond, hsame, hfresh⟩
      cases created with
      | error error => exact hends (hfirst.append (hsecond.append prepares_nil))
      | ok id =>
          have hmiddle : middle.IsSound := by
            intro branch pull hpull
            rw [hsame.2] at hpull
            rw [hsame.1]
            exact hsound branch pull hpull
          have hnew : middle.IsFresh id := by
            intro branch
            rw [hsame.1]
            exact hfresh id rfl branch
          refine (createBranch_traced hmiddle hnew).bind ?_
          rintro branched later third ⟨hthird, hnone⟩
          cases branched with
          | error error =>
              exact hends (hfirst.append (hsecond.append (hthird.append prepares_nil)))
          | ok _ =>
              refine (finish_traced proposal (hnone rfl)).mono ?_
              intro result last asked hasked hendangers
              have hprepared := hfirst.append (hsecond.append hthird)
              simp only [← List.append_assoc] at hendangers hprepared ⊢
              rcases endangers_append.1 hendangers with hendangers | hendangers
              · exact absurd hendangers (hprepared.not_endangers proposal.branch)
              · exact (hasked hendangers).after_prepares hprepared

/-- The call that a question is taken for, if it is a request for one. -/
def asked? (config : GitHub) (interface : Address) : Http.Question → Option Call
  | .send request => callOf? interface config.repository request
  | .pause _ => none

/-- A request to delete the branch is sent while the branch has an open pull
request. -/
def Destroys (config : GitHub) (interface : Address) (branch : String)
    (asked : List (Asked Http.Reply Server)) : Prop :=
  ∃ entry ∈ asked, asked? config interface entry.question = some (.deleteBranch branch) ∧
    entry.state.pulls branch ≠ none

/-- What is deleted by a request is deleted by a call. -/
theorem endangers_of_destroys {α σ : Type} {interface : Address}
    {answer : (question : Http.Question) → σ → Http.Reply question × σ} {view : σ → Server}
    {first : Exchange α} {start : σ}
    (hdestroys : Destroys config interface branch
      (((first.interpret config.overWeb).trace answer start).map (Asked.map view))) :
    Endangers branch
      ((first.trace (answering config.overWeb answer) start).map (Asked.map view)) := by
  obtain ⟨_, hentry, hdelete, hopen⟩ := hdestroys
  obtain ⟨⟨question, state, reply⟩, hmem, rfl⟩ := List.mem_map.1 hentry
  cases question with
  | pause span => cases hdelete
  | send request =>
      obtain ⟨call, hrequest, hcall⟩ := exists_attempt_of_mem_trace answer hmem
      refine ⟨_, List.mem_map_of_mem hcall, ?_, hopen⟩
      have hmethod : call.method = .delete :=
        (method_of_requestOf? hrequest).symm.trans (method_of_callOf? hdelete).symm
      cases call with
      | deleteBranch other => exact ⟨other, rfl⟩
      | _ => cases hmethod

/-- Publishing deletes the branch while it has an open pull request only if it
has opened the pull request itself, by a call without a readable answer, and
has read no listing of the branch since. -/
theorem publish_destroys_overlooked {interface : Address} (hserved : config.IsServedAt interface)
    {σ : Type} (answer : (question : Http.Question) → σ → Http.Reply question × σ)
    (view : σ → Server)
    (hanswer : ∀ question state,
      Muddles config interface question (view state) (answer question state).1
        (view (answer question state).2))
    {start : σ} (hsound : (view start).IsSound) (proposal : Proposal)
    (hname : config.IsNameable proposal.branch) (hplus : '+' ∉ proposal.branch.toList)
    (hdestroys : Destroys config interface proposal.branch
      ((((publish config policy proposal).interpret config.overWeb).trace answer start).map
        (Asked.map view))) :
    Overlooks config proposal
      (((publish config policy proposal).trace (answering config.overWeb answer) start).map
        (Asked.map view)) :=
  Interaction.AlwaysTraced.run (mumbles_of_muddles hserved hname hplus hanswer)
    (publish_traced hsound proposal) (endangers_of_destroys hdestroys)

end Publishing

namespace OverlookedExample

open AtomicityExample (config interface isNameable_branch isServedAt_interface proposal start
  start_isSound twice)

/-- The server opens the pull request, and answers by a text that is no
document. -/
def unreadable : Call → Option (Except Http.Failure Http.Answer)
  | .openPull .. => some (.ok ⟨201, .ok "<html>created</html>"⟩)
  | _ => none

/-- No listing is ever answered. -/
def unlisted : Call → Option (Except Http.Failure Http.Answer)
  | .listPulls .. => some (.error .timeout)
  | _ => none

theorem value?_unreadable (call : Call) (other : Except Http.Failure Http.Answer)
    (hother : unreadable call = some other) : Telling.web.value? other = none := by
  unfold unreadable at hother
  split at hother
  · cases hother
    decide +kernel
  · cases hother

theorem value?_unlisted (call : Call) (other : Except Http.Failure Http.Answer)
    (hother : unlisted call = some other) : Telling.web.value? other = none := by
  unfold unlisted at hother
  split at hother
  · cases hother
    rfl
  · cases hother

/-- What is asked for when the proposal is published on a server that spoils some of
its answers. -/
def asked (other? : Call → Option (Except Http.Failure Http.Answer)) (start : Forgetful) :
    List (Asked Http.Reply Server) :=
  (((publish config twice proposal).interpret config.overWeb).trace
    (Forgetful.spoil config twice interface other?) start).map (Asked.map Forgetful.seen)

/-- A server that loses no answer. -/
def prompt : Forgetful :=
  { start with loses := false }

/-- A pull request whose creation is answered by an unreadable text is not looked
for, and its branch is deleted. -/
theorem publish_destroys_unreadable :
    (∀ question server, Muddles config interface question server.seen
        (Forgetful.spoil config twice interface unreadable question server).1
        (Forgetful.spoil config twice interface unreadable question server).2.seen) ∧
      prompt.seen.IsSound ∧
      Destroys config interface proposal.branch (asked unreadable prompt) := by
  refine ⟨Forgetful.spoil_muddles config twice interface value?_unreadable, start_isSound, ?_⟩
  unfold Destroys
  decide +kernel

/-- A pull request that cannot be looked for is overlooked as well. -/
theorem publish_overlooks_unlisted :
    Destroys config interface proposal.branch (asked unlisted start) ∧
      Overlooks config proposal
        (((publish config twice proposal).trace (answering config.overWeb
          (Forgetful.spoil config twice interface unlisted)) start).map
            (Asked.map Forgetful.seen)) := by
  have hdestroys : Destroys config interface proposal.branch (asked unlisted start) := by
    unfold Destroys
    decide +kernel
  have hsound : start.seen.IsSound := start_isSound
  exact ⟨hdestroys, publish_destroys_overlooked isServedAt_interface
    (Forgetful.spoil config twice interface unlisted) Forgetful.seen
    (Forgetful.spoil_muddles config twice interface value?_unlisted) hsound proposal
    isNameable_branch (by decide) hdestroys⟩

end OverlookedExample

end GitHub

end StubSync
