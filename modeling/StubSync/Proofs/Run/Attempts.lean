/-
The attempts to publish that the task of a package makes.

Whatever a task is answered, it asks about its own package only, and its entry
accounts for its attempts: what is proposed with a link was opened by exactly
one attempt, and nothing else was opened.  No dry run attempts anything.
-/
import StubSync.Proofs.Proposal.Branch
import StubSync.Proofs.Proposal.Draft
import StubSync.Proofs.Run.Jobs

namespace StubSync

namespace Run

open Interaction (OnlyAsks Paces)

/-- The attempt to publish that a question is. -/
def attempt? : (question : Question) → Reply question → Option Attempt
  | .host question, reply => Hosting.attempt? question reply
  | .fetch _, _ => none

/-- What the task of a package may ask. -/
def MayAsk (dryRun : Bool) (package : Package) : Question → Prop
  | .fetch distribution => distribution = package.distribution
  | .host (.find query) => query.lead = Proposal.branchLead package.name
  | .host (.publish proposal) => dryRun = false ∧ proposal.package = package.name
  | .host (.issue _ _) => False

/-- What an entry says about the proposals that were opened for its package. -/
inductive Tallies (dryRun : Bool) (package : Package) :
    Entry → List (Proposal × Published) → Prop
  | quiet {entry : Entry} (hentry : entry.outcome.isProposed = false) :
      Tallies dryRun package entry []
  | drafted {entry : Entry} {action : Action} {branch : String} (hdryRun : dryRun = true)
      (hentry : entry.outcome = .proposed action branch none) :
      Tallies dryRun package entry []
  | opened {entry : Entry} {action : Action} {built : Proposal} {branch : String}
      {published : Published} (hlive : dryRun = false)
      (hbuilt : Proposal.build package action = .ok built)
      (hentry : entry.outcome = .proposed action branch (some published.url))
      (hdiff : entry.diff = some built.diff) :
      Tallies dryRun package entry [(built.onBranch branch, published)]

variable {dryRun : Bool} {package : Package} {history : List Attempt}

section Lifted

variable {α : Type} {ready : List Attempt → Hosting.Question → Prop}
  {asks : Question → Prop} {post : α → List Attempt → Prop}

/-- What is asked of the service as part of a run is asked of the service. -/
theorem host_paces {exchange : Hosting.Exchange α}
    (hexchange : exchange.Paces Hosting.attempt? ready post history)
    (hasks : ∀ history question, ready history question → asks (.host question)) :
    (host exchange).Paces attempt? (fun _ => asks) post history := by
  induction exchange generalizing history with
  | done result => exact hexchange
  | ask question next ih =>
      exact ⟨hasks history question hexchange.1, fun reply => ih reply (hexchange.2 reply)⟩

end Lifted

section Concluded

variable {action : Action} {skipped : Entry}

theorem concluded_package (entry : Entry) (action : Action)
    (result : Except SubmissionError Submission) :
    (concluded entry action result).package = entry.package := by
  rcases result with error | submission
  · rfl
  · cases submission <;> rfl

/-- A dry run has opened nothing. -/
theorem tallies_preview (draft : Draft) :
    Tallies true package (concluded skipped action draft.preview) [] := by
  cases draft with
  | failed error => exact .quiet rfl
  | blocked reason existing => exact .quiet rfl
  | ready proposal => exact .drafted rfl rfl

theorem tallies_goes {proposal : Proposal} (hbuilt : Proposal.build package action = .ok proposal)
    {result : Except SubmissionError Submission} {made : List Attempt}
    (hgoes : Submission.Goes proposal result made) :
    Tallies false package (concluded skipped action result) (Attempt.opened made) := by
  cases hgoes with
  | published published => exact .opened rfl hbuilt rfl rfl
  | moved taken published => exact .opened rfl hbuilt rfl rfl
  | refused error _ => exact .quiet rfl
  | refusedTwice taken error => exact .quiet rfl

/-- A live run has opened what its draft was submitted as. -/
theorem submit_paces {draft : Draft} (hdraft : Submission.IsDraftOf package action draft) :
    draft.submit.Paces Hosting.attempt?
      (fun _ question => MayAsk false package (.host question))
      (fun result attempts =>
        Tallies false package (concluded skipped action result) (Attempt.opened attempts)) [] := by
  cases draft with
  | failed error => exact .quiet rfl
  | blocked reason existing => exact .quiet rfl
  | ready proposal =>
      refine ((Submission.publish_paces _ proposal).mono ?_).weaken ?_
      · rintro result _ ⟨made, rfl, hgoes⟩
        exact tallies_goes hdraft hgoes
      · intro seen question hpublishes
        cases question with
        | publish asked =>
            obtain ⟨branch, rfl⟩ := hpublishes
            exact ⟨rfl, (Proposal.exists_of_build hdraft).1⟩
        | find query => exact hpublishes.elim
        | issue title body => exact hpublishes.elim

theorem propose_paces (dryRun : Bool) (package : Package) (action : Action) (skipped : Entry) :
    (Submission.propose dryRun package action).Paces Hosting.attempt?
      (fun _ question => MayAsk dryRun package (.host question))
      (fun result attempts =>
        Tallies dryRun package (concluded skipped action result) (Attempt.opened attempts)) [] := by
  rw [Submission.propose_eq]
  refine ((Submission.draft_paces _).weaken ?_).bind ?_
  · intro seen question hlooks
    cases question with
    | find query => exact hlooks
    | publish proposal => exact hlooks.elim
    | issue title body => exact hlooks.elim
  · rintro draft _ ⟨hdraft, rfl⟩
    cases dryRun with
    | true => exact tallies_preview draft
    | false => exact submit_paces hdraft

end Concluded

/-- The task's entry is of its package, and accounts for what was opened. -/
def Reports (config : Config) (package : Package) (entry : Entry) (attempts : List Attempt) :
    Prop :=
  entry.package = package.name ∧
    Tallies config.dryRun package entry (Attempt.opened attempts)

section Tasks

variable (config : Config) (package : Package)

theorem act_paces (latest : Option Version) (action : Action) :
    (act config package latest action).Paces attempt? (fun _ => MayAsk config.dryRun package)
      (Reports config package) [] := by
  have hproposes (skipped : Entry) (hpackage : skipped.package = package.name)
      (hskipped : skipped.outcome.isProposed = false) :
      (if config.filter.permits action then
        host (Submission.propose config.dryRun package action) >>= fun result =>
          return concluded skipped action result
      else return skipped : Exchange Entry).Paces attempt?
        (fun _ => MayAsk config.dryRun package) (Reports config package) [] := by
    split
    · refine (host_paces (propose_paces config.dryRun package action skipped)
        fun _ _ hquestion => hquestion).bind fun result attempts htallies => ?_
      exact ⟨(concluded_package skipped action result).trans hpackage, htallies⟩
    · exact ⟨hpackage, .quiet hskipped⟩
  cases action with
  | rest reason => exact ⟨rfl, .quiet rfl⟩
  | review reason => exact ⟨rfl, .quiet rfl⟩
  | update current target => exact hproposes _ rfl rfl
  | markObsolete since => exact hproposes _ rfl rfl

/-- Whatever a task is answered, it asks about its own package only, and its
entry accounts for its attempts. -/
theorem task_paces :
    (task config package).Paces attempt? (fun _ => MayAsk config.dryRun package)
      (Reports config package) [] := by
  unfold task
  split
  · refine ⟨rfl, fun reply => ?_⟩
    cases reply with
    | error error => exact ⟨rfl, .quiet rfl⟩
    | ok releases => exact act_paces config package _ _
  · exact ⟨rfl, .quiet rfl⟩

variable {config}

/-- What no task may ask is not asked in a run. -/
theorem entries_asks {may : Question → Prop}
    (hmay : ∀ package question, MayAsk config.dryRun package question → may question)
    (packages : List Package) : (entries config packages).OnlyAsks may := by
  induction packages with
  | nil => trivial
  | cons package others ih =>
      have htask : (task config package).OnlyAsks may :=
        (task_paces config package).onlyAsks fun _ question => hmay package question
      exact htask.bind fun _ => ih.bind fun _ => trivial

end Tasks

namespace Pool

variable {σ : Type} {config : Config} {packages : List Package}
  {answer : (question : Question) → σ → Reply question × σ}

/-- What is left of the task of a package asks what the package may ask, and
ends with what the package may report. -/
def Keeps (config : Config) (package : Package) (task : Exchange Entry) : Prop :=
  ∃ attempts, task.Paces attempt? (fun _ => MayAsk config.dryRun package)
    (Reports config package) attempts

/-- In whatever order the jobs take their steps, and whatever they are answered,
each of them keeps to its package. -/
theorem reaches_keeps {origin : σ} {pool : Pool σ}
    (hreaches : Reaches config answer (start config packages origin) pool) :
    Ledger (fun package task _ => Keeps config package task) packages pool := by
  have hkept : IsKept answer (fun package task _ => Keeps config package task) packages := by
    constructor
    · rintro package _ question next state ⟨attempts, hpaces⟩
      exact ⟨_, hpaces.2 _⟩
    · intro place other package found _ _ _ question next state task _ htask
      exact htask
  have hstart : Ledger (fun package task _ => Keeps config package task) packages
      (start config packages origin) :=
    start_ledger fun package _ => ⟨[], task_paces config package⟩
  exact (hstart.reaches hkept (fun _ => True) (fun _ _ _ _ _ _ _ => trivial) trivial
    hreaches).1

end Pool

end Run

end StubSync
