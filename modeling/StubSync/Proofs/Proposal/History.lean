/-
Histories of a hosting service to which packages are proposed.

A stub package has at most one open proposal.  One call opens at most one more,
and only where nothing of the package is open and nothing stands on the branch
or its twin; events from outside open none.  So the invariant holds at every
point of every history.
-/
import StubSync.Proofs.Hosting.Service
import StubSync.Proofs.Proposal.Blocking

namespace StubSync

namespace Submission

open Hosting

theorem find_always (query : Query) (before : List Existing) :
    (Hosting.find query).Always Honest
      (fun reply after => Honest (.find query) before reply after) before :=
  fun _ _ hreply => hreply

theorem publish_always (proposal : Proposal) (before : List Existing) :
    (Hosting.publish proposal).Always Honest
      (fun reply after => Honest (.publish proposal) before reply after) before :=
  fun _ _ hreply => hreply

/-- The open proposals of a stub package. -/
def openOf (stub : String) (proposals : List Existing) : List Existing :=
  proposals.filter fun existing =>
    existing.state == .opened && Proposal.isOf stub existing.branch

/-- No stub package has two open proposals. -/
def AtMostOneOpen (proposals : List Existing) : Prop :=
  ∀ stub, Proposal.IsStubName stub → (openOf stub proposals).length ≤ 1

/-- A proposal for the package is opened on one of the two branches, where
nothing of the package was open and nothing stood on either branch. -/
structure Opens (package : Package) (branch : String) (opened : Existing)
    (before after : List Existing) : Prop where
  on_branch : opened.branch = branch ∨ opened.branch = Proposal.twinBranch branch
  is_open : opened.state = .opened
  only_new : after.Perm (opened :: before)
  none_open : openOf package.name before = []
  none_same : ∀ existing ∈ before,
    existing.branch ≠ branch ∧ existing.branch ≠ Proposal.twinBranch branch

/-- What one call may do to the proposals that are shown. -/
def MayOpen (package : Package) (action : Action) (before after : List Existing) : Prop :=
  after = before ∨ ∃ branch opened,
    Proposal.branch? package.name action = some branch ∧
      Opens package branch opened before after

section Call

variable {package : Package} {action : Action} {branch : String} {before : List Existing}

/-- What a listing that blocks nothing tells of all proposals of the package. -/
theorem nothing_stands {found : List Existing}
    (hbranch : Proposal.branch? package.name action = some branch)
    (hcomplete : ∀ existing ∈ before,
      (Query.mk (Proposal.branchLead package.name) branch).covers existing.branch →
        existing ∈ found)
    (hnone : blocking? branch found = none) :
    openOf package.name before = [] ∧
      ∀ existing ∈ before,
        existing.branch ≠ branch ∧ existing.branch ≠ Proposal.twinBranch branch := by
  have hown : Proposal.isOf package.name branch = true := Proposal.branch?_isOf hbranch
  have hfree := blocking?_eq_none_iff.1 hnone
  constructor
  · simp only [openOf, List.filter_eq_nil_iff, Bool.and_eq_true, beq_iff_eq, not_and]
    intro existing hexisting hopened hof
    exact (hfree existing (hcomplete existing hexisting hof)).2 hopened
  · intro existing hexisting
    rw [← not_or]
    intro hsame
    have hof : Proposal.isOf package.name existing.branch = true := by
      rcases hsame with hsame | hsame
      · rw [hsame]
        exact hown
      · rw [hsame]
        exact Proposal.twinBranch_isOf hown
    exact (hfree existing (hcomplete existing hexisting hof)).1 hsame

/-- Publishing opens at most one proposal, and only on the branch or on its
twin: the second attempt is made only if the first one has left no trace. -/
theorem publish_mayOpen {proposal : Proposal}
    (hbranch : Proposal.branch? package.name action = some proposal.branch)
    (hnone : openOf package.name before = [])
    (hsame : ∀ existing ∈ before, existing.branch ≠ proposal.branch ∧
      existing.branch ≠ Proposal.twinBranch proposal.branch) :
    (publish proposal).Always Honest (fun _ after => MayOpen package action before after)
      before := by
  refine (publish_always proposal before).bind ?_
  intro first between hfirst
  match first with
  | .ok _ =>
      obtain ⟨opened, hon, hopen, hnew⟩ := hfirst
      exact Or.inr ⟨_, opened, hbranch, Or.inl hon, hopen, hnew, hnone, hsame⟩
  | .error (.conflict taken) =>
      obtain ⟨rfl, htaken⟩ := hfirst
      -- The conflict names the branch asked for, so the second one is its twin.
      obtain rfl := htaken taken rfl
      refine (publish_always _ between).bind ?_
      intro second after hsecond
      match second with
      | .ok _ =>
          obtain ⟨opened, hon, hopen, hnew⟩ := hsecond
          exact Or.inr ⟨_, opened, hbranch, Or.inr hon, hopen, hnew, hnone, hsame⟩
      | .error _ => exact Or.inl hsecond.1
  | .error (.rejected ..) | .error (.network ..) | .error (.rateLimited _)
  | .error (.timeout _) | .error (.invalid ..) => exact Or.inl hfirst.1

/-- The step lemma: what one call to propose may do. -/
theorem propose_mayOpen (dryRun : Bool) (package : Package) (action : Action)
    (before : List Existing) :
    (propose dryRun package action).Always Honest
      (fun _ after => MayOpen package action before after) before := by
  unfold propose
  cases hbranch : Proposal.branch? package.name action with
  | none => exact Or.inl rfl
  | some branch =>
      refine (find_always _ before).bind ?_
      rintro reply after ⟨rfl, hcomplete⟩
      cases reply with
      | error error => exact Or.inl rfl
      | ok found =>
          cases hblocking : blocking? branch found with
          | some stands => simp [hblocking, MayOpen]
          | none =>
              obtain ⟨hnone, hsame⟩ :=
                nothing_stands hbranch (hcomplete found rfl) hblocking
              cases hbuild : Proposal.build package action with
              | error error => simp [hblocking, MayOpen]
              | ok proposal =>
                  have hown := Proposal.branch?_of_build hbuild
                  obtain rfl : branch = proposal.branch :=
                    Option.some.inj (hbranch.symm.trans hown)
                  cases dryRun with
                  | true => simp [hblocking, MayOpen]
                  | false => simpa [hblocking, hbuild] using publish_mayOpen hown hnone hsame

end Call

section Invariant

variable {before after : List Existing}

theorem length_openOf_perm (stub : String) (hperm : after.Perm before) :
    (openOf stub after).length = (openOf stub before).length :=
  (hperm.filter _).length_eq

/-- Proposals that are only closed and merged leave no more of a package
open. -/
theorem length_openOf_le (stub : String)
    (hbecome : List.Forall₂ Existing.MayBecome before after) :
    (openOf stub after).length ≤ (openOf stub before).length := by
  induction hbecome with
  | nil => exact Nat.le_refl _
  | @cons old new olds news hhead _ ih =>
      obtain ⟨hbranch, hopened⟩ := hhead
      have hkeep : (new.state == .opened && Proposal.isOf stub new.branch) = true →
          (old.state == .opened && Proposal.isOf stub old.branch) = true := by
        simp only [Bool.and_eq_true, beq_iff_eq, hbranch]
        exact fun hnew => ⟨hopened hnew.1, hnew.2⟩
      simp only [openOf, List.filter_cons] at ih ⊢
      split
      · rename_i hnew
        rw [if_pos (hkeep hnew)]
        exact Nat.succ_le_succ ih
      · split
        · exact Nat.le_succ_of_le ih
        · exact ih

theorem AtMostOneOpen.of_mayBecome (hbefore : AtMostOneOpen before)
    (hbecome : List.Forall₂ Existing.MayBecome before after) : AtMostOneOpen after :=
  fun stub hstub => Nat.le_trans (length_openOf_le stub hbecome) (hbefore stub hstub)

theorem AtMostOneOpen.of_mayOpen {package : Package} {action : Action}
    (hbefore : AtMostOneOpen before) (hname : Proposal.IsStubName package.name)
    (hopen : MayOpen package action before after) : AtMostOneOpen after := by
  rcases hopen with rfl | ⟨branch, opened, hbranch, hopens⟩
  · exact hbefore
  · intro stub hstub
    have hown : Proposal.isOf package.name opened.branch = true := by
      rcases hopens.on_branch with heq | heq
      · exact heq ▸ Proposal.branch?_isOf hbranch
      · exact heq ▸ Proposal.twinBranch_isOf (Proposal.branch?_isOf hbranch)
    rw [length_openOf_perm stub hopens.only_new]
    by_cases hsame : stub = package.name
    · subst hsame
      have hone : openOf package.name (opened :: before) =
          opened :: openOf package.name before := by
        simp [openOf, hopens.is_open, hown]
      rw [hone, hopens.none_open]
      exact Nat.le_refl 1
    · have hforeign : Proposal.isOf stub opened.branch = false := by
        by_contra hcontra
        exact hsame (Proposal.eq_of_isOf hstub hname (by simpa using hcontra) hown)
      have hold : openOf stub (opened :: before) = openOf stub before := by
        simp [openOf, hforeign]
      rw [hold]
      exact hbefore stub hstub

end Invariant

end Submission

namespace Hosting

/-- One entry of a history: a call to propose, or something that happens. -/
inductive Step (ε : Type) where
  | propose (dryRun : Bool) (package : Package) (action : Action)
  | event (event : ε)

/-- The package of a call bears the name of a directory. -/
def Step.IsNamed {ε : Type} : Step ε → Prop
  | .propose _ package _ => Proposal.IsStubName package.name
  | .event _ => True

namespace Service

variable {σ ε : Type} {service : Service σ ε}

def step (service : Service σ ε) (state : σ) : Step ε → σ
  | .propose dryRun package action =>
      ((Submission.propose dryRun package action).run service.answer state).2
  | .event event => service.happen event state

/-- The state after a history. -/
def run (service : Service σ ε) (state : σ) (history : List (Step ε)) : σ :=
  history.foldl service.step state

open Submission

theorem IsHonest.propose (hservice : service.IsHonest) (dryRun : Bool) (package : Package)
    (action : Action) (state : σ) :
    MayOpen package action (service.proposals state)
      (service.proposals (service.step state (.propose dryRun package action))) :=
  Interaction.Always.run hservice.answers (propose_mayOpen dryRun package action _)

theorem IsHonest.step_atMostOneOpen (hservice : service.IsHonest) {state : σ}
    (hstate : AtMostOneOpen (service.proposals state)) {step : Step ε}
    (hstep : step.IsNamed) : AtMostOneOpen (service.proposals (service.step state step)) := by
  cases step with
  | propose dryRun package action =>
      exact hstate.of_mayOpen hstep (hservice.propose dryRun package action state)
  | event event => exact hstate.of_mayBecome (hservice.events event state)

theorem IsHonest.run_atMostOneOpen (hservice : service.IsHonest) {state : σ}
    (hstate : AtMostOneOpen (service.proposals state)) {history : List (Step ε)}
    (hhistory : ∀ step ∈ history, step.IsNamed) :
    AtMostOneOpen (service.proposals (service.run state history)) := by
  induction history generalizing state with
  | nil => exact hstate
  | cons step history ih =>
      have hnext := hservice.step_atMostOneOpen hstate (hhistory step List.mem_cons_self)
      exact ih hnext fun later hlater => hhistory later (List.mem_cons_of_mem step hlater)

/-- From a state in which no stub package has two open proposals, none ever
has, and each call on the way opens at most one proposal: on the branch of the
action or on its twin, where none of the package was open and none stood on
either branch. -/
theorem history_keeps_one_open (hservice : service.IsHonest) {start : σ}
    (hstart : AtMostOneOpen (service.proposals start)) {history : List (Step ε)}
    (hhistory : ∀ step ∈ history, step.IsNamed) :
    (∀ earlier, earlier <+: history →
      AtMostOneOpen (service.proposals (service.run start earlier))) ∧
    ∀ earlier dryRun package action,
      earlier ++ [.propose dryRun package action] <+: history →
        MayOpen package action (service.proposals (service.run start earlier))
          (service.proposals
            (service.run start (earlier ++ [.propose dryRun package action]))) := by
  constructor
  · intro earlier hearlier
    exact hservice.run_atMostOneOpen hstart fun step hstep =>
      hhistory step (hearlier.subset hstep)
  · intro earlier dryRun package action _
    rw [run, run, List.foldl_append]
    exact hservice.propose dryRun package action (service.run start earlier)

end Service

namespace HistoryExample

open Submission

/-- Stubs whose first branch is taken already. -/
def stubs : Package where
  name := "foo-stubs"
  distribution := "foo"
  minVersion := ⟨"1.0", ⟨0, [1, 0], none, none, none, none⟩, false⟩
  metadataSource := "version = \"1.0\"\n"

def bumpTo (segments : List Nat) : Action :=
  .update stubs.minVersion.version ⟨0, segments, none, none, none, none⟩

def start : { memory : Memory // memory.IsImpartial } :=
  ⟨{ proposals := [⟨1, "stubsabot/bar/bump-2.0", "https://example.com/pull/1", .opened⟩]
     taken := ["stubsabot/foo-stubs/bump-1.1"] }, fun error herror => by cases herror⟩

/-- The first bump goes to the twin and is asked for again while it is open and
after it is closed; then a newer bump is asked for. -/
def history : List (Step { event : Memory.Event // event.IsImpartial }) :=
  [.propose false stubs (bumpTo [1, 1]), .propose false stubs (bumpTo [1, 1]),
    .event ⟨.setState "stubsabot/foo-stubs/bump-1.1-2" .closed, nofun⟩,
    .propose false stubs (bumpTo [1, 1]), .propose false stubs (bumpTo [1, 2])]

theorem start_atMostOneOpen : AtMostOneOpen (Memory.service.proposals start) :=
  fun _ _ => List.length_filter_le _ _

theorem history_isNamed : ∀ step ∈ history, step.IsNamed := by
  simp only [history, List.forall_mem_cons, Step.IsNamed]
  exact ⟨by decide, by decide, trivial, by decide, by decide, by simp⟩

theorem history_opens_two :
    AtMostOneOpen (Memory.service.proposals start) ∧ (∀ step ∈ history, step.IsNamed) ∧
      ((Memory.service.proposals (Memory.service.run start history)).map
          fun existing => (existing.branch, existing.state)) =
        [("stubsabot/bar/bump-2.0", .opened), ("stubsabot/foo-stubs/bump-1.1-2", .closed),
          ("stubsabot/foo-stubs/bump-1.2", .opened)] ∧
      AtMostOneOpen (Memory.service.proposals (Memory.service.run start history)) := by
  refine ⟨start_atMostOneOpen, history_isNamed, by decide +kernel, ?_⟩
  exact (Service.history_keeps_one_open Memory.service_isHonest start_atMostOneOpen
    history_isNamed).1 history (List.prefix_refl history)

end HistoryExample

end Hosting

end StubSync
