/-
The order of the calls of publishing, whatever they are answered.

What was seen so far decides which call may come next.  Every step of
publishing keeps to that, so what is created is created once and in order, and
a branch is deleted only after it was created for a pull request that could not
be opened.
-/
import StubSync.Hosting.Publishing
import StubSync.Proofs.Hosting.Conversation
import StubSync.Proofs.Hosting.Deletion
import StubSync.Proofs.Hosting.Pages

namespace StubSync

namespace GitHub

open Interaction (answering seen paces_pure)

open Server (Carries)

section Order

/-- The calls that create something, in their order. -/
def creations (steps : List Step) : List Call :=
  (steps.map Step.call).filter fun call => call.method = .post

/-- An answer to the call carries a text at a path. -/
def Told (call : Call) (path : List String) (content : String) (history : List Step) : Prop :=
  ∃ reply, ⟨call, reply⟩ ∈ history ∧ Carries path content reply

/-- Nothing has been deleted. -/
def Undeleted (history : List Step) : Prop :=
  ∀ step ∈ history, step.call.method ≠ .delete

/-- A branch was created: its creation succeeded, or the branch was read back
afterwards and points at the commit it was created for. -/
def Branched (branch : String) (history : List Step) : Prop :=
  ∃ before commit reply after, history = before ++ ⟨.createBranch branch commit, reply⟩ :: after ∧
    ((∃ value, reply = .ok value) ∨ Told (.readBranch branch) ["object", "sha"] commit after)

/-- The lookup of the pull request of a branch came to nothing: its last
listing could not be read, or its first page is empty. -/
def FindsNothing (config : GitHub) (branch : String) (lookup : List Step) : Prop :=
  ∃ earlier page reply,
    lookup = earlier ++ [⟨.listPulls "open" (some (config.headOf branch)) page, reply⟩] ∧
    (pulls? reply = none ∨ page = 1 ∧ pulls? reply = some [])

/-- The pull request of a proposal could not be opened, and where it may be
there all the same, it was looked for and not found.  Nothing followed but lost
attempts to delete its branch. -/
def Unopened (config : GitHub) (proposal : Proposal) (history : List Step) : Prop :=
  ∃ before reply error lookup deletions,
    history = before ++ ⟨openingOf config proposal, reply⟩ :: lookup ++ deletions ∧
    openingError? reply = some error ∧
    (if error.isTransient || error.isUnprocessable then
      FindsNothing config proposal.branch lookup else lookup = []) ∧
    (∀ step ∈ lookup, ∃ page,
      step.call = .listPulls "open" (some (config.headOf proposal.branch)) page) ∧
    ∀ step ∈ deletions, step.call = .deleteBranch proposal.branch ∧ IsLost step.reply

/-- What must have gone before a call. -/
def Ready (config : GitHub) (proposal : Proposal) (history : List Step) : Call → Prop
  | .createTree base changes => Undeleted history ∧ changes = proposal.changes ∧
      ∃ parent, Told (.readCommit parent) ["tree", "sha"] base history
  | .createCommit message tree parent => Undeleted history ∧ message = proposal.commitMessage ∧
      ∃ base, Told (.readCommit parent) ["tree", "sha"] base history ∧
        Told (.createTree base proposal.changes) ["sha"] tree history
  | .createBranch branch commit => Undeleted history ∧ branch = proposal.branch ∧
      ∃ tree parent, Told (.createCommit proposal.commitMessage tree parent) ["sha"] commit history
  | .openPull title head base body => Undeleted history ∧
      Call.openPull title head base body = openingOf config proposal ∧
      Branched proposal.branch history
  | .deleteBranch branch => branch = proposal.branch ∧ Branched proposal.branch history ∧
      Unopened config proposal history
  | .createIssue _ _ => False
  | .listPulls .. | .readBranch _ | .readBase _ | .readCommit _ => Undeleted history

/-- The order of the calls of publishing, and what they come down to. -/
structure Disciplined (config : GitHub) (proposal : Proposal)
    (result : Except HostingError Published) (steps : List Step) : Prop where
  /-- What is created is created once, and in this order. -/
  created : ∃ base tree parent commit, creations steps <+:
    [.createTree base proposal.changes, .createCommit proposal.commitMessage tree parent,
      .createBranch proposal.branch commit, openingOf config proposal]
  ready : ∀ earlier step, earlier ++ [step] <+: steps → Ready config proposal earlier step.call
  kept : ∀ published, result = .ok published → Undeleted steps
  withdrawn : ∀ error, result = .error error → Branched proposal.branch steps →
    ∃ step ∈ steps, step.call = .deleteBranch proposal.branch

end Order

section Histories

variable {policy : RetryPolicy} {request : Call} {history lost : List Step}

theorem creations_append (first second : List Step) :
    creations (first ++ second) = creations first ++ creations second := by
  simp [creations]

theorem creations_eq_nil {steps : List Step} (hsteps : ∀ step ∈ steps, step.call.method ≠ .post) :
    creations steps = [] := by
  refine List.filter_eq_nil_iff.2 fun call hcall => ?_
  obtain ⟨step, hstep, rfl⟩ := List.mem_map.1 hcall
  simpa using hsteps step hstep

/-- A call creates at most one thing, whatever its attempts were answered. -/
theorem creations_tries (hlost : Tries policy request lost) (history : List Step)
    (reply : Except HostingError Json) :
    creations (history ++ lost ++ [⟨request, reply⟩]) =
      creations history ++ if request.method = .post then [request] else [] := by
  have hnone : creations lost = [] := by
    by_cases hmethod : request.method = .post
    · rw [hlost.once hmethod]
      rfl
    · refine creations_eq_nil fun step hstep => ?_
      rw [(hlost.passing step hstep).1]
      exact hmethod
  rw [creations_append, creations_append, hnone, List.append_nil]
  by_cases hmethod : request.method = .post
  · simp [creations, hmethod]
  · simp [creations, hmethod]

/-- A property that the call has is had by all its attempts. -/
theorem forall_tries {p : Call → Prop} (hlost : Tries policy request lost)
    (hhistory : ∀ step ∈ history, p step.call) (hrequest : p request) :
    ∀ step ∈ history ++ lost, p step.call := by
  intro step hstep
  rcases List.mem_append.1 hstep with hstep | hstep
  · exact hhistory step hstep
  · rw [(hlost.passing step hstep).1]
    exact hrequest

theorem forall_call {p : Call → Prop} (hlost : Tries policy request lost)
    (hhistory : ∀ step ∈ history, p step.call) (hrequest : p request)
    (reply : Except HostingError Json) :
    ∀ step ∈ history ++ lost ++ [⟨request, reply⟩], p step.call := by
  intro step hstep
  rcases List.mem_append.1 hstep with hstep | hstep
  · exact forall_tries hlost hhistory hrequest step hstep
  · rw [List.mem_singleton.1 hstep]
    exact hrequest

theorem Undeleted.tries (hhistory : Undeleted history) (hlost : Tries policy request lost)
    (hrequest : request.method ≠ .delete) : Undeleted (history ++ lost) :=
  forall_tries (p := fun call => call.method ≠ .delete) hlost hhistory hrequest

theorem Undeleted.call (hhistory : Undeleted history) (hlost : Tries policy request lost)
    (hrequest : request.method ≠ .delete) (reply : Except HostingError Json) :
    Undeleted (history ++ lost ++ [⟨request, reply⟩]) :=
  forall_call (p := fun call => call.method ≠ .delete) hlost hhistory hrequest reply

theorem Told.append {call : Call} {path : List String} {content : String}
    (htold : Told call path content history) (more : List Step) :
    Told call path content (history ++ more) := by
  obtain ⟨reply, hmem, hcarries⟩ := htold
  exact ⟨reply, List.mem_append_left more hmem, hcarries⟩

theorem Branched.append {branch : String} (hbranched : Branched branch history)
    (more : List Step) : Branched branch (history ++ more) := by
  obtain ⟨before, commit, reply, after, rfl, hdone⟩ := hbranched
  refine ⟨before, commit, reply, after ++ more, by rw [List.append_assoc, List.cons_append], ?_⟩
  exact hdone.imp_right fun htold => htold.append more

end Histories

section Publishing

variable {config : GitHub} {policy : RetryPolicy} {proposal : Proposal} {history : List Step}

/-- A call of the time when there is no branch yet. -/
def IsDraft : Call → Prop
  | .readBase _ | .readCommit _ | .createTree .. | .createCommit .. => True
  | _ => False

/-- There is no branch yet. -/
def Drafting (history : List Step) : Prop :=
  ∀ step ∈ history, IsDraft step.call

theorem drafting_nil : Drafting [] :=
  List.forall_mem_nil _

theorem Drafting.undeleted (hdraft : Drafting history) : Undeleted history := by
  intro step hstep hmethod
  have hcall := hdraft step hstep
  cases hname : step.call with
  | deleteBranch branch =>
      rw [hname] at hcall
      exact hcall
  | _ =>
      rw [hname] at hmethod
      cases hmethod

/-- A text is taken out of the last answer to a call. -/
theorem callForText_converses {ready : List Step → Call → Prop} {request : Call}
    {path : List String}
    (hready : ∀ lost, Tries policy request lost → ready (history ++ lost) request) :
    Converses ready (callForText policy request path)
      (fun result steps => ∃ lost reply, Tries policy request lost ∧
        steps = history ++ lost ++ [⟨request, reply⟩] ∧
        result = reply.bind (textField path request.operation)) history := by
  refine (call_converses hready).bind ?_
  rintro reply _ ⟨lost, hlost, rfl⟩
  cases reply with
  | error error => exact ⟨lost, .error error, hlost, rfl, rfl⟩
  | ok value => exact ⟨lost, .ok value, hlost, rfl, rfl⟩

/-- A text is asked for while there is no branch yet. -/
theorem draft_converses {request : Call} {path : List String} {made : List Call}
    (hdraft : Drafting history) (hcreated : creations history = made) (hrequest : IsDraft request)
    (hready : ∀ more, Drafting (history ++ more) →
      Ready config proposal (history ++ more) request) :
    Converses (Ready config proposal) (callForText policy request path)
      (fun result steps => Drafting steps ∧
        creations steps = made ++ (if request.method = .post then [request] else []) ∧
        (∃ more, steps = history ++ more) ∧
        ∀ content, result = .ok content → Told request path content steps) history := by
  refine Interaction.Paces.mono
    (callForText_converses fun lost hlost => hready lost (forall_tries hlost hdraft hrequest)) ?_
  rintro result _ ⟨lost, reply, hlost, rfl, hresult⟩
  rw [← hcreated]
  refine ⟨forall_call hlost hdraft hrequest reply, creations_tries hlost history reply,
    ⟨_, List.append_assoc ..⟩, fun content hcontent => ?_⟩
  rw [hresult] at hcontent
  cases reply with
  | error error => cases hcontent
  | ok value =>
      exact ⟨.ok value, List.mem_append_right _ (List.mem_singleton_self _), value, rfl,
        at?_of_textField hcontent⟩

theorem baseOf_converses :
    Converses (Ready config proposal) (baseOf config policy proposal)
      (fun _ steps => Drafting steps ∧ creations steps = []) [] := by
  unfold baseOf
  cases proposal.baseCommit with
  | some commit => exact ⟨drafting_nil, rfl⟩
  | none =>
      have hread : Converses (Ready config proposal)
          (callForText policy (.readBase config.baseBranch) ["object", "sha"]) _ [] :=
        draft_converses drafting_nil rfl trivial fun more hdraft => hdraft.undeleted
      exact hread.mono fun result steps hseen => ⟨hseen.1, hseen.2.1⟩

/-- What creating the commit of a proposal leaves behind. -/
structure Drafted (proposal : Proposal) (result : Except HostingError String)
    (steps : List Step) : Prop where
  drafting : Drafting steps
  created : ∃ base tree parent,
    creations steps <+: [.createTree base proposal.changes,
      .createCommit proposal.commitMessage tree parent] ∧
    ∀ commit, result = .ok commit →
      creations steps = [.createTree base proposal.changes,
        .createCommit proposal.commitMessage tree parent] ∧
      Told (.createCommit proposal.commitMessage tree parent) ["sha"] commit steps

theorem createCommit_converses (hdraft : Drafting history) (hcreated : creations history = [])
    (parent : String) :
    Converses (Ready config proposal) (createCommit policy proposal parent)
      (Drafted proposal) history := by
  have hread : Converses (Ready config proposal)
      (callForText policy (.readCommit parent) ["tree", "sha"]) _ history :=
    draft_converses hdraft hcreated trivial fun more hlater => hlater.undeleted
  refine hread.bind ?_
  rintro base _ ⟨hdraft, hcreated, ⟨read, rfl⟩, hbase⟩
  cases base with
  | error error => exact ⟨hdraft, "", "", "", by rw [hcreated]; exact List.nil_prefix, nofun⟩
  | ok base =>
      have htree : Converses (Ready config proposal)
          (callForText policy (.createTree base proposal.changes) ["sha"]) _ (history ++ read) :=
        draft_converses hdraft hcreated trivial fun more hlater =>
          ⟨hlater.undeleted, rfl, parent, (hbase base rfl).append more⟩
      refine htree.bind ?_
      rintro tree _ ⟨hdraft, hcreated, ⟨planted, rfl⟩, htree⟩
      cases tree with
      | error error =>
          exact ⟨hdraft, base, "", "", by rw [hcreated]; exact List.prefix_append [_] _, nofun⟩
      | ok tree =>
          have hcommit : Converses (Ready config proposal)
              (callForText policy (.createCommit proposal.commitMessage tree parent) ["sha"]) _
              (history ++ read ++ planted) :=
            draft_converses hdraft hcreated trivial fun more hlater =>
              ⟨hlater.undeleted, rfl, base, ((hbase base rfl).append planted).append more,
                (htree tree rfl).append more⟩
          refine hcommit.mono ?_
          rintro commit steps ⟨hdraft, hcreated, _, hcommit⟩
          refine ⟨hdraft, base, tree, parent, ?_, ?_⟩
          · rw [hcreated]
            exact List.prefix_refl _
          · rintro commit rfl
            exact ⟨hcreated, hcommit commit rfl⟩

theorem textField_eq_ok_iff {path : List String} {operation content : String} {value : Json} :
    textField path operation value = .ok content ↔ Carries path content (.ok value) := by
  constructor
  · intro hfield
    exact ⟨value, rfl, at?_of_textField hfield⟩
  · rintro ⟨_, hsame, hvalue⟩
    cases hsame
    simp only [textField, hvalue]

theorem not_carries_of_isLost {path : List String} {content : String}
    {reply : Except HostingError Json} (hlost : IsLost reply) : ¬ Carries path content reply := by
  rintro ⟨value, rfl, _⟩
  exact not_isLost_ok value hlost

theorem branchHead_converses {ready : List Step → Call → Prop} {branch : String}
    (hready : ∀ lost, Tries policy (.readBranch branch) lost →
      ready (history ++ lost) (.readBranch branch)) :
    Converses ready (branchHead policy branch)
      (fun result steps => ∃ lost reply, Tries policy (.readBranch branch) lost ∧
        steps = history ++ lost ++ [⟨.readBranch branch, reply⟩] ∧
        ∀ head, result = .ok (some head) ↔ Carries ["object", "sha"] head reply) history := by
  refine (call_converses hready).bind ?_
  rintro reply _ ⟨lost, hlost, rfl⟩
  split
  · rename_i value
    refine ⟨lost, .ok value, hlost, rfl, fun head => ?_⟩
    have hfield := @textField_eq_ok_iff ["object", "sha"] (Call.readBranch branch).operation head
      value
    rw [← hfield]
    cases textField ["object", "sha"] (Call.readBranch branch).operation value with
    | error error => exact ⟨nofun, nofun⟩
    | ok content => simp [Except.map]
  · exact ⟨lost, _, hlost, rfl, fun head => ⟨nofun, nofun⟩⟩
  · exact ⟨lost, _, hlost, rfl, fun head => ⟨nofun, nofun⟩⟩

/-- What reading a branch back makes of the error of its creation. -/
structure ReadsBack (branch commit : String) (error : HostingError)
    (result : Except HostingError Unit) (reads : List Step) : Prop where
  calls : ∀ step ∈ reads, step.call = .readBranch branch
  asked : error.isUnprocessable = true → reads ≠ []
  /-- The branch counts as created just if it points at the commit. -/
  settled : result = .ok () ↔ Told (.readBranch branch) ["object", "sha"] commit reads
  refused : ∀ other, result = .error other → other = settleBranch.refused branch error

theorem settleBranch_converses {ready : List Step → Call → Prop} {branch : String}
    (hready : ∀ lost, Tries policy (.readBranch branch) lost →
      ready (history ++ lost) (.readBranch branch)) (commit : String) (error : HostingError) :
    Converses ready (settleBranch policy branch commit error)
      (fun result steps => ∃ reads, steps = history ++ reads ∧
        ReadsBack branch commit error result reads) history := by
  unfold settleBranch
  split
  · refine (branchHead_converses hready).bind ?_
    rintro result _ ⟨lost, reply, hlost, rfl, hhead⟩
    have hreads : ∀ step ∈ lost ++ [⟨.readBranch branch, reply⟩],
        step.call = .readBranch branch :=
      forall_call (p := (· = .readBranch branch)) hlost (List.forall_mem_nil _) rfl reply
    have hasked : lost ++ [(⟨.readBranch branch, reply⟩ : Step)] ≠ [] := by simp
    have htold : Told (.readBranch branch) ["object", "sha"] commit
        (lost ++ [⟨.readBranch branch, reply⟩]) ↔ result = .ok (some commit) := by
      rw [hhead]
      constructor
      · rintro ⟨answer, hmem, hcarries⟩
        rcases List.mem_append.1 hmem with hmem | hmem
        · exact absurd hcarries (not_carries_of_isLost (hlost.passing _ hmem).2)
        · cases List.mem_singleton.1 hmem
          exact hcarries
      · intro hcarries
        exact ⟨reply, List.mem_append_right _ (List.mem_singleton_self _), hcarries⟩
    have hrefused {told : Except HostingError (Option String)} (hresult : result = told)
        (hnone : told ≠ .ok (some commit)) : ReadsBack branch commit error
          (.error (settleBranch.refused branch error))
          (lost ++ [⟨.readBranch branch, reply⟩]) := by
      refine ⟨hreads, fun _ => hasked, ?_, fun other hother => (Except.error.inj hother).symm⟩
      rw [htold, hresult]
      exact ⟨nofun, fun hsome => absurd hsome hnone⟩
    split
    · rename_i head
      split
      · rename_i hsame
        refine ⟨_, List.append_assoc .., hreads, fun _ => hasked, ?_, nofun⟩
        rw [htold, hsame]
        exact ⟨fun _ => rfl, fun _ => rfl⟩
      · rename_i hother
        exact ⟨_, List.append_assoc .., hrefused rfl (by simpa using hother)⟩
    · rename_i hnone
      exact ⟨_, List.append_assoc .., hrefused rfl (hnone commit)⟩
  · rename_i hlasting
    rw [Bool.or_eq_true, not_or] at hlasting
    refine ⟨[], (List.append_nil _).symm, List.forall_mem_nil _,
      fun hunprocessable => absurd hunprocessable hlasting.1, ⟨nofun, ?_⟩, ?_⟩
    · rintro ⟨_, hmem, _⟩
      cases hmem
    · intro other hother
      rw [settleBranch.refused, if_neg hlasting.1]
      exact (Except.error.inj hother).symm

theorem not_branched (hdraft : Drafting history) {branch commit : String} {error : HostingError}
    {reads : List Step} (hreads : ∀ step ∈ reads, step.call = .readBranch branch)
    (htold : ¬ Told (.readBranch branch) ["object", "sha"] commit reads) :
    ¬ Branched branch (history ++ ⟨.createBranch branch commit, .error error⟩ :: reads) := by
  rintro ⟨before, other, reply, after, hsplit, hdone⟩
  have hcreation : (⟨.createBranch branch other, reply⟩ : Step) =
      ⟨.createBranch branch commit, .error error⟩ := by
    have hmem : (⟨.createBranch branch other, reply⟩ : Step) ∈
        history ++ ⟨.createBranch branch commit, .error error⟩ :: reads := by
      rw [hsplit]
      simp
    rcases List.mem_append.1 hmem with hmem | hmem
    · exact (hdraft _ hmem).elim
    · rcases List.mem_cons.1 hmem with hsame | hmem
      · exact hsame
      · cases hreads _ hmem
  cases hcreation
  rcases hdone with ⟨_, hok⟩ | ⟨answer, hmem, hcarries⟩
  · cases hok
  · have hmem : (⟨.readBranch branch, answer⟩ : Step) ∈
        history ++ ⟨.createBranch branch commit, .error error⟩ :: reads := by
      rw [hsplit]
      simp [hmem]
    rcases List.mem_append.1 hmem with hmem | hmem
    · exact (hdraft _ hmem).elim
    · rcases List.mem_cons.1 hmem with hsame | hmem
      · cases hsame
      · exact htold ⟨answer, hmem, hcarries⟩

theorem createBranch_converses (hdraft : Drafting history) {tree parent commit : String}
    (htold : Told (.createCommit proposal.commitMessage tree parent) ["sha"] commit history) :
    Converses (Ready config proposal) (createBranch policy proposal.branch commit)
      (fun result steps => Undeleted steps ∧
        creations steps = creations history ++ [.createBranch proposal.branch commit] ∧
        (result = .ok () ↔ Branched proposal.branch steps)) history := by
  have hcall : Converses (Ready config proposal)
      (call policy (.createBranch proposal.branch commit)) _ history :=
    call_converses fun lost hlost => by
      rw [hlost.once rfl, List.append_nil]
      exact ⟨hdraft.undeleted, rfl, tree, parent, htold⟩
  refine hcall.bind ?_
  rintro reply _ ⟨lost, hlost, rfl⟩
  have hundeleted : Undeleted
      (history ++ lost ++ [⟨.createBranch proposal.branch commit, reply⟩]) :=
    hdraft.undeleted.call hlost (by simp [Call.method]) reply
  have hcreated := creations_tries hlost history reply
  rw [hlost.once rfl, List.append_nil] at hundeleted hcreated ⊢
  cases reply with
  | ok value =>
      refine ⟨hundeleted, hcreated, fun _ => ?_, fun _ => rfl⟩
      exact ⟨history, commit, .ok value, [], rfl, Or.inl ⟨value, rfl⟩⟩
  | error error =>
      have hsettle : Converses (Ready config proposal)
          (settleBranch policy proposal.branch commit error) _
          (history ++ [⟨.createBranch proposal.branch commit, .error error⟩]) :=
        settleBranch_converses (fun lost hlost =>
          hundeleted.tries hlost (by simp [Call.method])) commit error
      refine hsettle.mono ?_
      rintro result _ ⟨reads, rfl, hback⟩
      obtain ⟨hreads, -, hresult, -⟩ := hback
      have hreading : creations reads = [] := by
        refine creations_eq_nil fun step hstep => ?_
        rw [hreads step hstep]
        simp [Call.method]
      refine ⟨?_, by rw [creations_append, hreading, hcreated, List.append_nil]; rfl, ?_⟩
      · intro step hstep
        rcases List.mem_append.1 hstep with hstep | hstep
        · exact hundeleted step hstep
        · rw [hreads step hstep]
          simp [Call.method]
      · rw [hresult, List.append_assoc]
        constructor
        · intro hcommit
          exact ⟨history, commit, .error error, reads, rfl, Or.inr hcommit⟩
        · intro hbranched
          by_contra hnone
          exact not_branched hdraft hreads hnone hbranched

/-- What a listing from page `number` on comes down to: without a result its
last page could not be read, and without pull requests its first page is
empty. -/
structure Lists (state : String) (head : Option String) (number left : Nat)
    (result : Except HostingError (List Pull)) (lookup : List Step) : Prop where
  pages : ∀ step ∈ lookup, ∃ page, step.call = .listPulls state head page
  unread : ∀ error, result = .error error → ∃ earlier page reply,
    lookup = earlier ++ [⟨.listPulls state head page, reply⟩] ∧ pulls? reply = none
  empty : result = .ok [] → left = 0 ∨ ∃ earlier reply,
    lookup = earlier ++ [⟨.listPulls state head number, reply⟩] ∧ pulls? reply = some []

theorem PagesRead.lists {state : String} {head : Option String} {number left : Nat}
    {result : Except HostingError (List Pull)} {lookup : List Step}
    (hread : PagesRead policy state head number left result lookup) :
    Lists state head number left result lookup where
  pages := hread.listing
  unread := by
    rintro error rfl
    exact hread.of_error
  empty := by
    rintro rfl
    generalize hresult : Except.ok [] = result at hread
    cases hread with
    | done => exact Or.inl rfl
    | unread hlost hreply => cases hresult
    | @last number left lost reply pulls hlost hreply hshort =>
        cases hresult
        exact Or.inr ⟨lost, reply, rfl, hreply⟩
    | @more number left lost lookup reply pulls others hlost hreply hfull hothers =>
        cases others with
        | error error => cases hresult
        | ok others =>
            -- A full page is not empty.
            have hnil : pulls = [] := (List.append_eq_nil_iff.1 (Except.ok.inj hresult).symm).1
            rw [hnil] at hfull
            exact absurd hfull (by decide)

theorem pagesFrom_converses (hhistory : Undeleted history) (state : String)
    (head : Option String) (number left : Nat) :
    Converses (Ready config proposal) (pagesFrom policy state head number left)
      (fun result steps => ∃ lookup, steps = history ++ lookup ∧
        Lists state head number left result lookup) history := by
  apply Interaction.Paces.mono (pagesFrom_reads _)
  · rintro result _ ⟨lookup, rfl, hread⟩
    exact ⟨lookup, rfl, hread.lists⟩
  · intro lookup hlookup page
    apply List.forall_mem_append.2 ⟨hhistory, ?_⟩
    intro step hstep
    obtain ⟨page, hcall⟩ := hlookup step hstep
    simp [hcall, Call.method]

theorem openPullOf_converses (hhistory : Undeleted history) (branch : String) :
    Converses (Ready config proposal) (openPullOf config policy branch)
      (fun result steps => ∃ lookup, steps = history ++ lookup ∧
        (∀ step ∈ lookup, ∃ page,
          step.call = .listPulls "open" (some (config.headOf branch)) page) ∧
        ((∀ pull, result ≠ .ok (some pull)) → FindsNothing config branch lookup)) history := by
  refine Interaction.Paces.bind
    (pagesFrom_converses hhistory "open" (some (config.headOf branch)) 1 maxPages) ?_
  rintro result _ ⟨lookup, rfl, hlists⟩
  cases result with
  | error error =>
      refine ⟨lookup, rfl, hlists.pages, fun _ => ?_⟩
      obtain ⟨earlier, page, reply, hsplit, hunread⟩ := hlists.unread error rfl
      exact ⟨earlier, page, reply, hsplit, Or.inl hunread⟩
  | ok pulls =>
      refine ⟨lookup, rfl, hlists.pages, fun hnone => ?_⟩
      cases pulls with
      | cons pull others => exact absurd rfl (hnone pull)
      | nil =>
          obtain hpages | ⟨earlier, reply, hsplit, hempty⟩ := hlists.empty rfl
          · cases hpages
          · exact ⟨earlier, 1, reply, hsplit, Or.inr ⟨rfl, hempty⟩⟩

/-- What the opening of a pull request comes down to, in a history in which it
was asked for. -/
structure Finished (proposal : Proposal) (history : List Step)
    (result : Except HostingError Published) (steps : List Step) : Prop where
  created : creations steps = creations history
  kept : ∀ published, result = .ok published → Undeleted steps
  withdrawn : ∀ error, result = .error error →
    ∃ step ∈ steps, step.call = .deleteBranch proposal.branch

theorem withdraw_converses {error : HostingError}
    (hbranched : Branched proposal.branch history)
    (hunopened : ∀ deletions : List Step,
      (∀ step ∈ deletions, step.call = .deleteBranch proposal.branch ∧ IsLost step.reply) →
        Unopened config proposal (history ++ deletions)) :
    Converses (Ready config proposal) (withdraw policy proposal error)
      (Finished proposal history) history := by
  have hcall : Converses (Ready config proposal)
      (call policy (.deleteBranch proposal.branch)) _ history :=
    call_converses fun lost hlost =>
      ⟨rfl, hbranched.append lost, hunopened lost hlost.passing⟩
  refine hcall.bind ?_
  rintro reply _ ⟨lost, hlost, rfl⟩
  refine ⟨?_, nofun, fun _ _ => ⟨_, List.mem_append_right _ (List.mem_singleton_self _), rfl⟩⟩
  rw [creations_tries hlost history reply, if_neg (by simp [Call.method]), List.append_nil]

theorem settlePull_converses {before : List Step} {reply : Except HostingError Json}
    {error : HostingError} (herror : openingError? reply = some error)
    (hundeleted : Undeleted (before ++ [⟨openingOf config proposal, reply⟩]))
    (hbranched : Branched proposal.branch (before ++ [⟨openingOf config proposal, reply⟩])) :
    Converses (Ready config proposal) (settlePull config policy proposal error)
      (Finished proposal (before ++ [⟨openingOf config proposal, reply⟩]))
      (before ++ [⟨openingOf config proposal, reply⟩]) := by
  unfold settlePull
  split
  · rename_i hasks
    refine (openPullOf_converses hundeleted proposal.branch).bind ?_
    rintro result _ ⟨lookup, rfl, hpages, hnothing⟩
    have hmethod : ∀ step ∈ lookup, step.call.method = .get := by
      intro step hstep
      obtain ⟨page, hpage⟩ := hpages step hstep
      rw [hpage]
      rfl
    have hcreated : creations (before ++ [⟨openingOf config proposal, reply⟩] ++ lookup) =
        creations (before ++ [⟨openingOf config proposal, reply⟩]) := by
      have hnone : creations lookup = [] :=
        creations_eq_nil fun step hstep => by simp [hmethod step hstep]
      rw [creations_append, hnone, List.append_nil]
    split
    · refine ⟨hcreated, fun _ _ => List.forall_mem_append.2 ⟨hundeleted, fun step hstep => ?_⟩,
        nofun⟩
      simp [hmethod step hstep]
    · rename_i hnone
      refine (withdraw_converses (hbranched.append lookup) fun deletions hdeletions => ?_).mono ?_
      · refine ⟨before, reply, error, lookup, deletions, by simp, herror, ?_, hpages, hdeletions⟩
        rw [if_pos hasks]
        exact hnothing hnone
      · rintro result steps ⟨hsteps, hkept, hwithdrawn⟩
        exact ⟨hsteps.trans hcreated, hkept, hwithdrawn⟩
  · rename_i hasks
    refine withdraw_converses hbranched fun deletions hdeletions => ?_
    refine ⟨before, reply, error, [], deletions, by simp, herror, ?_, List.forall_mem_nil _,
      hdeletions⟩
    rw [if_neg (by simpa using hasks)]

theorem openPull_converses (hundeleted : Undeleted history)
    (hbranched : Branched proposal.branch history) :
    Converses (Ready config proposal) (openPull config policy proposal)
      (fun result steps => ∃ reply, steps = history ++ [⟨openingOf config proposal, reply⟩] ∧
        ∀ error, result = .error error → openingError? reply = some error) history := by
  have hcall : Converses (Ready config proposal)
      (call policy (openingOf config proposal)) _ history :=
    call_converses fun lost hlost => by
      rw [hlost.once rfl, List.append_nil]
      exact ⟨hundeleted, rfl, hbranched⟩
  refine hcall.bind ?_
  rintro reply _ ⟨lost, hlost, rfl⟩
  rw [hlost.once rfl, List.append_nil]
  cases reply with
  | error error =>
      exact ⟨.error error, rfl, fun _ herror => congrArg some (Except.error.inj herror)⟩
  | ok value =>
      cases hpull : Pull.ofJson? value with
      | some pull =>
          simp only [hpull]
          refine ⟨.ok value, rfl, fun error herror => ?_⟩
          cases herror
      | none =>
          simp only [hpull]
          refine ⟨.ok value, rfl, fun error herror => ?_⟩
          cases herror
          simp only [openingError?, hpull]
          rfl

theorem finish_converses (hundeleted : Undeleted history)
    (hbranched : Branched proposal.branch history) :
    Converses (Ready config proposal) (finish config policy proposal)
      (fun result steps => ∃ reply,
        Finished proposal (history ++ [⟨openingOf config proposal, reply⟩]) result steps)
      history := by
  refine (openPull_converses hundeleted hbranched).bind ?_
  rintro result _ ⟨reply, rfl, herror⟩
  have hundeleted : Undeleted (history ++ [⟨openingOf config proposal, reply⟩]) := by
    have hnone : Tries policy (openingOf config proposal) [] := tries_nil
    have hafter := hundeleted.call hnone (by simp [openingOf, Call.method]) reply
    rwa [List.append_nil] at hafter
  cases result with
  | ok pull =>
      refine ⟨reply, rfl, fun _ _ => hundeleted, fun error herror => ?_⟩
      cases herror
  | error error =>
      refine (settlePull_converses (herror error rfl) hundeleted (hbranched.append _)).mono ?_
      exact fun result steps hfinished => ⟨reply, hfinished⟩

/-- Publishing that stops before its branch is created leaves nothing to
withdraw. -/
theorem publish_converses :
    Converses (Ready config proposal) (publish config policy proposal)
      (fun result steps =>
        (∃ base tree parent commit, creations steps <+:
          [.createTree base proposal.changes, .createCommit proposal.commitMessage tree parent,
            .createBranch proposal.branch commit, openingOf config proposal]) ∧
        (∀ published, result = .ok published → Undeleted steps) ∧
        ∀ error, result = .error error → Branched proposal.branch steps →
          ∃ step ∈ steps, step.call = .deleteBranch proposal.branch) [] := by
  have hearly {steps : List Step} (hdraft : Drafting steps)
      (hbranched : Branched proposal.branch steps) :
      ∃ step ∈ steps, step.call = .deleteBranch proposal.branch := by
    obtain ⟨before, commit, reply, after, rfl, _⟩ := hbranched
    exact (hdraft ⟨.createBranch proposal.branch commit, reply⟩ (by simp)).elim
  refine baseOf_converses.bind ?_
  rintro parent history ⟨hdraft, hcreated⟩
  cases parent with
  | error error =>
      refine ⟨⟨"", "", "", "", ?_⟩, nofun, fun _ _ => hearly hdraft⟩
      rw [hcreated]
      exact List.nil_prefix
  | ok parent =>
      refine (createCommit_converses hdraft hcreated parent).bind ?_
      rintro commit history ⟨hdraft, base, tree, parent, hcreated, htold⟩
      cases commit with
      | error error =>
          refine ⟨⟨base, tree, parent, "", ?_⟩, nofun, fun _ _ => hearly hdraft⟩
          exact hcreated.trans (List.prefix_append [_, _] _)
      | ok commit =>
          obtain ⟨hcreated, htold⟩ := htold commit rfl
          refine (createBranch_converses hdraft htold).bind ?_
          rintro result history ⟨hundeleted, hbranch, hbranched⟩
          rw [hcreated] at hbranch
          cases result with
          | error error =>
              refine ⟨⟨base, tree, parent, commit, ?_⟩, nofun, fun _ _ hthere => ?_⟩
              · rw [hbranch]
                exact List.prefix_append [_, _, _] _
              · cases hbranched.2 hthere
          | ok done =>
              refine (finish_converses hundeleted (hbranched.1 rfl)).mono ?_
              rintro result steps ⟨reply, hfinished⟩
              refine ⟨⟨base, tree, parent, commit, ?_⟩, hfinished.kept,
                fun error herror _ => hfinished.withdrawn error herror⟩
              rw [hfinished.created, creations_append, hbranch]
              exact List.prefix_refl _

variable {σ : Type}

theorem disciplined_of_unsent {result : Except HostingError Published} :
    Disciplined config proposal result [] where
  created := ⟨"", "", "", "", List.nil_prefix⟩
  ready := by
    rintro earlier step hprefix
    simp at hprefix
  kept := fun _ _ => List.forall_mem_nil _
  withdrawn := by
    rintro _ _ ⟨before, commit, reply, after, hsplit, _⟩
    simp at hsplit

theorem publish_seen (answer : (question : Question) → σ → Reply question × σ) (start : σ) :
    Disciplined config proposal ((publish config policy proposal).run answer start).1
      (seen step? ((publish config policy proposal).trace answer start)) := by
  have hpublish : Converses (Ready config proposal) (publish config policy proposal) _ [] :=
    publish_converses
  obtain ⟨hcreated, hkept, hwithdrawn⟩ := hpublish.run answer start
  refine ⟨hcreated, ?_, hkept, hwithdrawn⟩
  rintro earlier step ⟨later, hsplit⟩
  rw [List.append_assoc, List.singleton_append] at hsplit
  obtain ⟨question, reply, hseen, hready⟩ := hpublish.ready_of_seen hsplit.symm
  cases question with
  | pause span => cases hseen
  | attempt call =>
      cases hseen
      exact hready

/-- Whatever the service answers, the requests of publishing are attempts of
calls in their order.  Where the interface is found, every attempt is sent, and
it goes to the place of its call. -/
theorem publish_disciplined (config : GitHub) (policy : RetryPolicy) (proposal : Proposal)
    (answer : (question : Http.Question) → σ → Http.Reply question × σ) (start : σ) :
    let sent := Http.sends
      (((publish config policy proposal).interpret config.overWeb).trace answer start)
    ∃ steps : List Step,
      List.Forall₂ (IsSentAs config) steps sent ∧
      Disciplined config proposal
        (((publish config policy proposal).interpret config.overWeb).run answer start).1 steps ∧
      ∀ interface, config.IsServedAt interface →
        steps = seen step?
          ((publish config policy proposal).trace (answering config.overWeb answer) start) ∧
        List.Forall₂ (fun step sent => config.IsDirected interface step.call sent.request) steps
          sent := by
  intro sent
  rcases config.requestOf?_cases with hnone | hreads
  · have hsilent : sent = [] := sends_interpret_eq_nil answer hnone _ start
    rw [hsilent]
    refine ⟨[], .nil, disciplined_of_unsent, fun interface hserved => ?_⟩
    obtain ⟨request, hrequest, _⟩ := exists_requestOf? hserved.reads (.readBase "")
    rw [hnone] at hrequest
    cases hrequest
  · have hsent := sends_interpret answer hreads (publish config policy proposal) start
    rw [Interaction.run_interpret]
    refine ⟨_, hsent, publish_seen _ start, fun interface hserved => ⟨rfl, ?_⟩⟩
    exact hsent.imp fun _ _ hstep => isDirected_of_requestOf? hserved hstep.1

end Publishing

namespace DisciplineExample

open AtomicityExample (asked based config hashed interface isServedAt_interface published sent
  twice unwilling)

/-- A pull request that is refused, and its branch, which is deleted again. -/
theorem publish_directed :
    config.IsServedAt interface ∧
      asked based unwilling =
        [("GET", "/repos/octo/stubs/git/commits/base"),
          ("POST", "/repos/octo/stubs/git/trees"),
          ("POST", "/repos/octo/stubs/git/commits"),
          ("POST", "/repos/octo/stubs/git/refs"),
          ("POST", "/repos/octo/stubs/pulls"),
          ("DELETE", "/repos/octo/stubs/git/refs/heads/stubsabot/foo/bump-1.1")] ∧
      ∃ steps, Disciplined config based (published based unwilling).1 steps ∧
        List.Forall₂ (fun step sent => config.IsDirected interface step.call sent.request) steps
          (sent based unwilling) := by
  obtain ⟨steps, _, hdisciplined, hdirected⟩ :=
    publish_disciplined config twice based (Forgetful.answer config twice interface) unwilling
  exact ⟨isServedAt_interface, by decide +kernel, steps, hdisciplined,
    (hdirected interface isServedAt_interface).2⟩

/-- A proposal whose branch has a name that starts like another one. -/
def shadowed : Proposal :=
  { hashed with branch := "main#x" }

/-- The branch that is deleted for it is the base of all proposals. -/
theorem publish_deletes_base :
    config.IsServedAt interface ∧ shadowed.branch = "main#x" ∧ config.baseBranch = "main" ∧
      ("DELETE", "/repos/octo/stubs/git/refs/heads/main") ∈ asked shadowed unwilling ∧
      unwilling.branches.lookup "main" = some "base" ∧
      (published shadowed unwilling).2.branches.lookup "main" = none :=
  ⟨isServedAt_interface, rfl, rfl, by decide +kernel⟩

end DisciplineExample

end GitHub

end StubSync
