/-
What a dry run tells about a live run.

Both start with the same draft, and the draft changes nothing that the hosting
service shows.  So what a dry run comes to decides what a live run from the
same state comes to, up to the answers to its attempts to publish.
-/
import StubSync.Hosting.Memory
import StubSync.Proofs.Proposal.Draft

namespace StubSync

open Interaction (Asked OnlyAsks Paces)

namespace Submission

open Hosting (attempt?)

section Runs

variable {σ ν : Type} (answer : (question : Hosting.Question) → σ → Hosting.Reply question × σ)

/-- The attempts to publish of a run, in order. -/
def attempts {α : Type} (exchange : Hosting.Exchange α) (state : σ) : List Attempt :=
  Interaction.seen attempt? (exchange.trace answer state)

/-- The service, as far as its answers go: where it reports a conflict, it names
the branch that was asked for. -/
def NamesAsked : Prop :=
  ∀ proposal state taken,
    (answer (.publish proposal) state).1 = .error (.conflict taken) → taken = proposal.branch

variable (package : Package) (action : Action) (state : σ)

/-- What was answered to an attempt is an answer of the service. -/
theorem answer_of_mem_attempts {α : Type} {exchange : Hosting.Exchange α} {state : σ}
    {attempt : Attempt} (hattempt : attempt ∈ attempts answer exchange state) :
    ∃ before, (answer (.publish attempt.proposal) before).1 = attempt.reply := by
  obtain ⟨⟨question, before, reply⟩, hasked, hseen⟩ := List.mem_filterMap.1 hattempt
  have hreply := Interaction.reply_of_mem_trace hasked
  cases question with
  | publish proposal =>
      cases hseen
      exact ⟨before, hreply⟩
  | find query => cases hseen
  | issue title body => cases hseen

theorem draft_run : IsDraftOf package action ((draft package action).run answer state).1 ∧
    attempts answer (draft package action) state = [] :=
  (draft_paces []).run answer state

variable {answer}

theorem draft_view {view : σ → ν}
    (hview : ∀ query state, view (answer (.find query) state).2 = view state) :
    view ((draft package action).run answer state).2 = view state := by
  have hlooks : (draft package action).OnlyAsks (LooksFor package) :=
    (draft_paces []).onlyAsks fun _ _ hquestion => hquestion
  refine hlooks.view_eq (fun question state hquestion => ?_) state
  cases question with
  | find query => exact hview query state
  | publish proposal => exact hquestion.elim
  | issue title body => exact hquestion.elim

variable (answer)

theorem preview_run : (propose true package action).run answer state =
    (((draft package action).run answer state).1.preview,
      ((draft package action).run answer state).2) := by
  rw [propose_dryRun, Interaction.run_bind, Interaction.run_pure]

theorem attempts_preview : attempts answer (propose true package action) state = [] := by
  rw [propose_dryRun, attempts, Interaction.trace_bind, Interaction.seen_append]
  exact List.append_eq_nil_iff.2 ⟨(draft_run answer package action state).2, rfl⟩

theorem live_run : (propose false package action).run answer state =
    ((draft package action).run answer state).1.submit.run answer
      ((draft package action).run answer state).2 := by
  rw [propose_live, Interaction.run_bind]

theorem attempts_live : attempts answer (propose false package action) state =
    attempts answer ((draft package action).run answer state).1.submit
      ((draft package action).run answer state).2 := by
  have hdraft := (draft_run answer package action state).2
  rw [attempts] at hdraft
  rw [propose_live, attempts, Interaction.trace_bind, Interaction.seen_append, hdraft]
  rfl

/-- A draft that is not ready is left as it is. -/
theorem submit_of_not_ready {draft : Draft} (hready : ∀ proposal, draft ≠ .ready proposal) :
    draft.submit = pure draft.preview := by
  cases draft with
  | failed error => rfl
  | blocked reason existing => rfl
  | ready proposal => exact absurd rfl (hready proposal)

theorem publish_goes (proposal : Proposal) :
    Goes proposal ((publish proposal).run answer state).1
      (attempts answer (publish proposal) state) := by
  obtain ⟨made, hmade, hgoes⟩ := (publish_paces [] proposal).run answer state
  rw [List.nil_append, List.nil_append] at hmade
  rw [attempts, hmade]
  exact hgoes

variable {answer}

/-- Where conflicts name the branch that was asked for, a proposal is published
as it is or on the twin of its own branch, or its publication fails. -/
theorem Goes.of_namesAsked (hnames : NamesAsked answer) {proposal : Proposal}
    {result : Except SubmissionError Submission} {made : List Attempt}
    (hgoes : Goes proposal result made)
    (hanswered : ∀ attempt ∈ made, ∃ before,
      (answer (.publish attempt.proposal) before).1 = attempt.reply) :
    (∃ url, result = .ok (.published proposal url)) ∨
      (∃ url, result =
        .ok (.published (proposal.onBranch (Proposal.twinBranch proposal.branch)) url)) ∨
      ∃ error, result = .error (.hosting error) ∧
        ∃ asked before, (answer (.publish asked) before).1 = .error error := by
  cases hgoes with
  | published published => exact Or.inl ⟨published.url, rfl⟩
  | moved taken published =>
      obtain ⟨before, hconflict⟩ := hanswered _ List.mem_cons_self
      rw [hnames proposal before taken hconflict]
      exact Or.inr (Or.inl ⟨published.url, rfl⟩)
  | refused error _ =>
      obtain ⟨before, hrefused⟩ := hanswered _ List.mem_cons_self
      exact Or.inr (Or.inr ⟨error, rfl, proposal, before, hrefused⟩)
  | refusedTwice taken error =>
      obtain ⟨before, hrefused⟩ := hanswered _ (List.mem_cons_of_mem _ List.mem_cons_self)
      exact Or.inr (Or.inr ⟨error, rfl, _, before, hrefused⟩)

/-- What the end of a dry run tells about the end of a live run from the same
state and the attempts that were made in it; `view` is what the service
shows. -/
structure Foretells (answer : (question : Hosting.Question) → σ → Hosting.Reply question × σ)
    (view : σ → ν) (start : σ) (preview live : Except SubmissionError Submission × σ)
    (made : List Attempt) : Prop where
  /-- The dry run leaves what is shown as it is. -/
  untouched : view preview.2 = view start
  unpublished : ∀ proposal url, preview.1 ≠ .ok (.published proposal url)
  skipped_iff : ∀ reason existing, preview.1 = .ok (.skipped reason existing) ↔
    live.1 = .ok (.skipped reason existing)
  failed : ∀ error, preview.1 = .error error → live.1 = .error error
  /-- Where the dry run has no proposal, nothing is published by the live one. -/
  unsubmitted : (∀ proposal, preview.1 ≠ .ok (.dryRun proposal)) →
    made = [] ∧ view live.2 = view start
  submitted : ∀ proposal, preview.1 = .ok (.dryRun proposal) → Goes proposal live.1 made
  named : NamesAsked answer → ∀ proposal, preview.1 = .ok (.dryRun proposal) →
    (∃ url, live.1 = .ok (.published proposal url)) ∨
      (∃ url, live.1 =
        .ok (.published (proposal.onBranch (Proposal.twinBranch proposal.branch)) url)) ∨
      ∃ error, live.1 = .error (.hosting error) ∧
        ∃ asked before, (answer (.publish asked) before).1 = .error error

/-- A dry run makes no attempt to publish, changes nothing that is shown, and
foretells the live run, whatever the service answers. -/
theorem dryRun_foretells {view : σ → ν}
    (hview : ∀ query state, view (answer (.find query) state).2 = view state)
    (package : Package) (action : Action) (state : σ) :
    attempts answer (propose true package action) state = [] ∧
      Foretells answer view state ((propose true package action).run answer state)
        ((propose false package action).run answer state)
        (attempts answer (propose false package action) state) := by
  refine ⟨attempts_preview answer package action state, ?_⟩
  rw [preview_run, live_run, attempts_live]
  have hsame : view ((draft package action).run answer state).2 = view state :=
    draft_view package action state hview
  generalize (draft package action).run answer state = drafted at hsame
  obtain ⟨draft, later⟩ := drafted
  by_cases hready : ∃ proposal, draft = .ready proposal
  · obtain ⟨proposal, rfl⟩ := hready
    have hgoes : Goes proposal ((publish proposal).run answer later).1
        (attempts answer (publish proposal) later) := publish_goes answer later proposal
    constructor
    · exact hsame
    · exact Draft.preview_ne_published (.ready proposal)
    · intro reason existing
      refine ⟨nofun, fun hlive => ?_⟩
      rw [Draft.submit] at hlive
      rw [hlive] at hgoes
      cases hgoes
    · exact nofun
    · exact fun hnone => absurd rfl (hnone proposal)
    · intro asked hasked
      cases hasked
      exact hgoes
    · intro hnames asked hasked
      cases hasked
      exact hgoes.of_namesAsked hnames fun attempt => answer_of_mem_attempts answer
  · have hnone : ∀ proposal, draft ≠ .ready proposal := fun proposal hproposal =>
      hready ⟨proposal, hproposal⟩
    rw [submit_of_not_ready hnone]
    have hundrafted (proposal : Proposal) : draft.preview ≠ .ok (.dryRun proposal) := fun heq =>
      hnone proposal (Draft.preview_eq_dryRun_iff.1 heq)
    constructor
    · exact hsame
    · exact Draft.preview_ne_published draft
    · exact fun reason existing => Iff.rfl
    · exact fun error herror => herror
    · exact fun _ => ⟨rfl, hsame⟩
    · exact fun proposal hproposal => absurd hproposal (hundrafted proposal)
    · exact fun _ proposal hproposal => absurd hproposal (hundrafted proposal)

end Runs

namespace PreviewExample

open Hosting (Memory)

def stubs : Package where
  name := "foo-stubs"
  distribution := "foo"
  minVersion := ⟨"1.0", ⟨0, [1, 0], none, none, none, none⟩, false⟩
  metadataSource := "version = \"1.0\"\n"

def bump : Action :=
  .update stubs.minVersion.version ⟨0, [1, 1], none, none, none, none⟩

/-- No proposal is there, but the branch of the bump is taken. -/
def start : Memory :=
  { taken := ["stubsabot/foo-stubs/bump-1.1"] }

def shown (memory : Memory) : List Existing × List String :=
  (memory.proposals, memory.taken)

theorem find_shown (query : Hosting.Query) (memory : Memory) :
    shown (memory.answer (.find query)).2 = shown memory := by
  simp only [Memory.answer, Memory.find]
  split <;> rfl

def branch? : Except SubmissionError Submission → Option String
  | .ok (.published proposal _) | .ok (.dryRun proposal) => some proposal.branch
  | _ => none

/-- The dry run names the branch, and the live run moves to its twin. -/
theorem start_foretold :
    (∀ query memory, shown (Memory.answer (.find query) memory).2 = shown memory) ∧
      Foretells Memory.answer shown start ((propose true stubs bump).run Memory.answer start)
        ((propose false stubs bump).run Memory.answer start)
        (attempts Memory.answer (propose false stubs bump) start) ∧
      branch? ((propose true stubs bump).run Memory.answer start).1 =
        some "stubsabot/foo-stubs/bump-1.1" ∧
      branch? ((propose false stubs bump).run Memory.answer start).1 =
        some "stubsabot/foo-stubs/bump-1.1-2" :=
  ⟨find_shown, (dryRun_foretells find_shown stubs bump start).2, by decide +kernel,
    by decide +kernel⟩

end PreviewExample

end Submission

end StubSync
