/-
A proposal up to the point where it is published.

A draft looks at what the hosting service shows and makes up the proposal, or
finds out why there is none.  Dry runs and live runs share it, and they differ
only in what becomes of a draft that is ready.
-/
import StubSync.Proofs.Pacing
import StubSync.Proposal.Submission

namespace StubSync

open Interaction (OnlyAsks Paces)

/-- What comes of a proposal before anything is published. -/
inductive Draft where
  | failed (error : SubmissionError)
  | blocked (reason : SkipReason) (existing : Existing)
  | ready (proposal : Proposal)

namespace Draft

/-- What a dry run makes of the draft. -/
def preview : Draft → Except SubmissionError Submission
  | .failed error => .error error
  | .blocked reason existing => .ok (.skipped reason existing)
  | .ready proposal => .ok (.dryRun proposal)

/-- What a live run makes of the draft. -/
def submit : Draft → Hosting.Exchange (Except SubmissionError Submission)
  | .ready proposal => Submission.publish proposal
  | draft => return draft.preview

theorem preview_eq_dryRun_iff {draft : Draft} {proposal : Proposal} :
    draft.preview = .ok (.dryRun proposal) ↔ draft = .ready proposal := by
  cases draft <;> simp [preview]

theorem preview_ne_published (draft : Draft) (proposal : Proposal) (url : String) :
    draft.preview ≠ .ok (.published proposal url) := by
  cases draft <;> simp [preview]

end Draft

/-- An attempt to publish a proposal, and the answer to it. -/
structure Attempt where
  proposal : Proposal
  reply : Except HostingError Published

namespace Attempt

/-- The proposal that the attempt has opened, and what the service said. -/
def opened? (attempt : Attempt) : Option (Proposal × Published) :=
  match attempt.reply with
  | .ok published => some (attempt.proposal, published)
  | .error _ => none

/-- What was opened by attempts, in order. -/
def opened (attempts : List Attempt) : List (Proposal × Published) :=
  attempts.filterMap opened?

@[simp]
theorem opened_nil : opened [] = [] :=
  rfl

theorem opened_append (first second : List Attempt) :
    opened (first ++ second) = opened first ++ opened second :=
  List.filterMap_append

@[simp]
theorem opened_cons_ok (proposal : Proposal) (published : Published) (others : List Attempt) :
    opened (⟨proposal, .ok published⟩ :: others) = (proposal, published) :: opened others :=
  rfl

@[simp]
theorem opened_cons_error (proposal : Proposal) (error : HostingError) (others : List Attempt) :
    opened (⟨proposal, .error error⟩ :: others) = opened others :=
  rfl

end Attempt

namespace Hosting

/-- The attempt that a question is. -/
def attempt? : (question : Question) → Reply question → Option Attempt
  | .publish proposal, reply => some ⟨proposal, reply⟩
  | _, _ => none

end Hosting

namespace Submission

open Hosting (attempt?)

/-- What is made up where these proposals are shown. -/
def drafted (package : Package) (action : Action) (branch : String)
    (existing : List Existing) : Draft :=
  match blocking? branch existing with
  | some (reason, found) => .blocked reason found
  | none =>
      match Proposal.build package action with
      | .error error => .failed (.metadata error)
      | .ok proposal => .ready proposal

/-- Look for proposals in the way, and make one up if there is none. -/
def draft (package : Package) (action : Action) : Hosting.Exchange Draft :=
  match Proposal.branch? package.name action with
  | none => return .failed (.metadata (Proposal.notProposable package action))
  | some branch => do
      match ← Hosting.find ⟨Proposal.branchLead package.name, branch⟩ with
      | .error error => return .failed (.hosting error)
      | .ok existing => return drafted package action branch existing

/-- A dry run comes down to the preview of the draft, and a live run submits
it. -/
theorem propose_eq (dryRun : Bool) (package : Package) (action : Action) :
    propose dryRun package action = draft package action >>= fun draft =>
      if dryRun then pure draft.preview else draft.submit := by
  unfold propose draft
  cases Proposal.branch? package.name action with
  | none => cases dryRun <;> rfl
  | some branch =>
      refine congrArg (Interaction.ask _) (funext fun reply => ?_)
      cases reply with
      | error error => cases dryRun <;> rfl
      | ok existing =>
          change _ = if dryRun then pure (drafted package action branch existing).preview
            else (drafted package action branch existing).submit
          unfold drafted
          simp only [Interaction.bind]
          cases blocking? branch existing with
          | some blocking => cases dryRun <;> rfl
          | none =>
              cases Proposal.build package action with
              | error error => cases dryRun <;> rfl
              | ok proposal => cases dryRun <;> rfl

theorem propose_dryRun (package : Package) (action : Action) :
    propose true package action = draft package action >>= fun draft => pure draft.preview :=
  propose_eq true package action

theorem propose_live (package : Package) (action : Action) :
    propose false package action = draft package action >>= Draft.submit :=
  propose_eq false package action

/-- The question is about the proposals that there are of the package. -/
def LooksFor (package : Package) : Hosting.Question → Prop
  | .find query => query.lead = Proposal.branchLead package.name
  | _ => False

/-- What is known of a draft to carry out an action on a package. -/
def IsDraftOf (package : Package) (action : Action) : Draft → Prop
  | .ready proposal => Proposal.build package action = .ok proposal
  | _ => True

theorem drafted_isDraftOf (package : Package) (action : Action) (branch : String)
    (existing : List Existing) :
    IsDraftOf package action (drafted package action branch existing) := by
  unfold drafted
  cases blocking? branch existing with
  | some blocking => trivial
  | none =>
      cases hbuild : Proposal.build package action with
      | error error => trivial
      | ok proposal => exact hbuild

section Paced

variable {package : Package} {action : Action} (history : List Attempt)

/-- A draft takes a look at the proposals of its package, and does nothing
else. -/
theorem draft_paces : (draft package action).Paces attempt? (fun _ => LooksFor package)
    (fun draft attempts => IsDraftOf package action draft ∧ attempts = history) history := by
  unfold draft
  cases Proposal.branch? package.name action with
  | none => exact ⟨trivial, rfl⟩
  | some branch =>
      refine ⟨rfl, fun reply => ?_⟩
      cases reply with
      | error error => exact ⟨trivial, List.append_nil _⟩
      | ok existing =>
          exact ⟨drafted_isDraftOf package action branch existing, List.append_nil _⟩

/-- The ways in which the publication of a proposal may go: the attempts that
are made, and what they come to. -/
inductive Goes (proposal : Proposal) : Except SubmissionError Submission → List Attempt → Prop
  | published (published : Published) :
      Goes proposal (.ok (.published proposal published.url)) [⟨proposal, .ok published⟩]
  /-- The service says that a branch is taken, and the proposal moves to the
  twin of that branch. -/
  | moved (taken : String) (published : Published) :
      Goes proposal
        (.ok (.published (proposal.onBranch (Proposal.twinBranch taken)) published.url))
        [⟨proposal, .error (.conflict taken)⟩,
          ⟨proposal.onBranch (Proposal.twinBranch taken), .ok published⟩]
  | refused (error : HostingError) :
      (∀ taken, error ≠ .conflict taken) →
      Goes proposal (.error (.hosting error)) [⟨proposal, .error error⟩]
  | refusedTwice (taken : String) (error : HostingError) :
      Goes proposal (.error (.hosting error))
        [⟨proposal, .error (.conflict taken)⟩,
          ⟨proposal.onBranch (Proposal.twinBranch taken), .error error⟩]

/-- The question is to publish the proposal, on whatever branch. -/
def Publishes (proposal : Proposal) : Hosting.Question → Prop
  | .publish asked => ∃ branch, asked = proposal.onBranch branch
  | _ => False

theorem publish_paces (proposal : Proposal) :
    (publish proposal).Paces attempt? (fun _ => Publishes proposal)
      (fun result attempts => ∃ made, attempts = history ++ made ∧ Goes proposal result made)
      history := by
  refine ⟨⟨proposal.branch, rfl⟩, fun reply => ?_⟩
  cases reply with
  | ok published => exact ⟨_, rfl, .published published⟩
  | error error =>
      cases error with
      | conflict taken =>
          refine ⟨⟨_, rfl⟩, fun reply => ?_⟩
          cases reply with
          | ok published => exact ⟨_, List.append_assoc .., .moved taken published⟩
          | error error => exact ⟨_, List.append_assoc .., .refusedTwice taken error⟩
      | _ => exact ⟨_, rfl, .refused _ nofun⟩

end Paced

end Submission

end StubSync
