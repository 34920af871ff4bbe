/-
What a run has published, as its report and the service tell it.

The attempts to publish are noted beside the state of the service.  Each task
accounts for the attempts of its own package, and the attempts of the others
leave its account as it is.  So when no job is left, the proposals that the
service shows beside the old ones are those that the report calls proposed.
-/
import StubSync.Hosting.Memory
import StubSync.Proofs.Patch.Application
import StubSync.Proofs.Run.Pool

namespace StubSync

open Interaction (Paces noting)

namespace Report

/-- Every entry has an outcome of one of the four kinds. -/
theorem counts_add (report : Report) :
    report.proposedCount + report.skippedCount + report.reviewCount + report.failedCount =
      report.entries.length := by
  simp only [proposedCount, skippedCount, reviewCount, failedCount, count]
  induction report.entries with
  | nil => rfl
  | cons entry others ih =>
      simp only [List.countP_cons, List.length_cons, ← ih]
      cases entry.outcome <;> simp +arith [Outcome.isProposed, Outcome.isSkipped,
        Outcome.isReview, Outcome.isFailed]

end Report

namespace Run

section Accounts

/-- The attempts to publish a proposal of the stub package. -/
def madeFor (stub : String) (attempts : List Attempt) : List Attempt :=
  attempts.filter fun attempt => attempt.proposal.package == stub

theorem perm_flatMap_madeFor {stubs : List String} (hstubs : stubs.Nodup)
    {attempts : List Attempt} (hattempts : ∀ attempt ∈ attempts, attempt.proposal.package ∈ stubs) :
    attempts.Perm (stubs.flatMap fun stub => madeFor stub attempts) := by
  induction stubs generalizing attempts with
  | nil =>
      have hnil : attempts = [] := List.eq_nil_iff_forall_not_mem.2 fun attempt hmem =>
        absurd (hattempts attempt hmem) List.not_mem_nil
      rw [hnil]
      exact .refl _
  | cons stub others ih =>
      obtain ⟨hfresh, hothers⟩ := List.nodup_cons.1 hstubs
      let rest := attempts.filter fun attempt => !(attempt.proposal.package == stub)
      have hrest : rest.Perm (others.flatMap fun other => madeFor other rest) := by
        refine ih hothers fun attempt hmem => ?_
        obtain ⟨hmem, hne⟩ := List.mem_filter.1 hmem
        refine (List.mem_cons.1 (hattempts attempt hmem)).resolve_left ?_
        simpa using hne
      have hsame : ∀ other ∈ others, madeFor other rest = madeFor other attempts := by
        intro other hother
        rw [madeFor, List.filter_filter, madeFor]
        refine List.filter_congr fun attempt _ => ?_
        by_cases hpackage : attempt.proposal.package = other
        · have hne : other ≠ stub := fun heq => hfresh (heq ▸ hother)
          simp [hpackage, hne]
        · simp [hpackage]
      rw [List.flatMap_congr hsame] at hrest
      rw [List.flatMap_cons]
      exact (List.filter_append_perm _ _).symm.trans (hrest.append_left _)

end Accounts

section Entries

/-- The entry is about one proposal for the package: it tells the branch and
the address, and its diff turns the metadata of the package into the contents
that the proposal gives to its one file. -/
structure IsAbout (package : Package) (entry : Entry) (proposal : Proposal)
    (published : Published) : Prop where
  name : proposal.package = package.name
  outcome : entry.outcome = .proposed proposal.action proposal.branch (some published.url)
  change : ∃ diff contents, entry.diff = some diff ∧
    proposal.changes = [⟨Path.withSlashes package.metadataPath, contents⟩] ∧
    Patch.patched? package.metadataPath diff package.metadataSource = some contents

/-- The entry tells what was opened for the package: one proposal, which it is
about, or nothing at all. -/
inductive Settled (package : Package) (entry : Entry) : List (Proposal × Published) → Prop
  | proposed {proposal : Proposal} {published : Published}
      (habout : IsAbout package entry proposal published) :
      Settled package entry [(proposal, published)]
  | quiet (hquiet : entry.outcome.isProposed = false) : Settled package entry []

/-- The branch of an entry that is proposed. -/
def branchOf? (entry : Entry) : Option String :=
  match entry.outcome with
  | .proposed _ branch _ => some branch
  | _ => none

variable {package : Package} {entry : Entry} {opened : List (Proposal × Published)}

theorem settled_of_tallies (htallies : Tallies false package entry opened) :
    Settled package entry opened := by
  cases htallies with
  | quiet hquiet => exact .quiet hquiet
  | drafted hdry => cases hdry
  | @opened action built branch published _ hbuilt hentry hdiff =>
      obtain ⟨hpackage, haction, _, contents, _, hchanges, hspelled⟩ :=
        Proposal.exists_of_build hbuilt
      refine .proposed ⟨hpackage, ?_, built.diff, contents, hdiff, hchanges, ?_⟩
      · rw [hentry, ← haction]
        rfl
      · rw [hspelled]
        exact Patch.patched?_unified _ _ _

theorem Settled.branches (hsettled : Settled package entry opened) :
    opened.map (fun made => made.1.branch) = (branchOf? entry).toList := by
  cases hsettled with
  | proposed habout =>
      rw [branchOf?, habout.outcome]
      rfl
  | quiet hquiet =>
      cases houtcome : entry.outcome with
      | proposed action branch url =>
          rw [houtcome] at hquiet
          cases hquiet
      | _ =>
          rw [branchOf?, houtcome]
          rfl

end Entries

section Noted

variable {σ : Type} {config : Config} {packages : List Package}
  {answer : (question : Question) → σ → Reply question × σ}

/-- What is left of a task accounts for the attempts of its package. -/
def Owed (config : Config) (package : Package) (task : Exchange Entry)
    (state : σ × List Attempt) : Prop :=
  task.Paces attempt? (fun _ => MayAsk config.dryRun package) (Reports config package)
    (madeFor package.name state.2)

/-- A package attempts to publish its own proposals only. -/
theorem package_of_attempt {dryRun : Bool} {package : Package} {question : Question}
    {reply : Reply question} (hasks : MayAsk dryRun package question) {attempt : Attempt}
    (hattempt : attempt ∈ (attempt? question reply).toList) :
    attempt.proposal.package = package.name := by
  rw [Option.mem_toList] at hattempt
  match question with
  | .fetch distribution => cases hattempt
  | .host (.find query) => cases hattempt
  | .host (.publish proposal) =>
      cases hattempt
      exact hasks.2
  | .host (.issue title body) => cases hattempt

theorem madeFor_append (stub : String) (first second : List Attempt) :
    madeFor stub (first ++ second) = madeFor stub first ++ madeFor stub second :=
  List.filter_append ..

theorem owed_isKept (hdistinct : (packages.map Package.name).Nodup) :
    Pool.IsKept (noting attempt? answer) (Owed config) packages := by
  constructor
  · intro package _ question next state howed
    have hmade : madeFor package.name (attempt? question (answer question state.1).1).toList =
        (attempt? question (answer question state.1).1).toList :=
      List.filter_eq_self.2 fun attempt hattempt =>
        beq_iff_eq.2 (package_of_attempt howed.1 hattempt)
    have hnext := howed.2 (answer question state.1).1
    rw [← hmade, ← madeFor_append] at hnext
    exact hnext
  · intro place other package found hpackage hfound hother question next state task howed htask
    have hmade :
        madeFor found.name (attempt? question (answer question state.1).1).toList = [] := by
      refine List.filter_eq_nil_iff.2 fun attempt hattempt => ?_
      rw [package_of_attempt howed.1 hattempt, beq_iff_eq]
      exact Pool.name_ne hdistinct hpackage hfound (Ne.symm hother)
    rw [Owed, noting, madeFor_append, hmade, List.append_nil]
    exact htask

/-- The surroundings show proposals, and one is added exactly by a publication
that succeeds: open, and on the branch that was asked for.  Any question may fail
at any time. -/
structure IsTruthful (answer : (question : Question) → σ → Reply question × σ)
    (proposals : σ → List Existing) : Prop where
  fetch : ∀ distribution state,
    proposals (answer (.fetch distribution) state).2 = proposals state
  find : ∀ query state, proposals (answer (.host (.find query)) state).2 = proposals state
  refused : ∀ proposal state error,
    (answer (.host (.publish proposal)) state).1 = .error error →
      proposals (answer (.host (.publish proposal)) state).2 = proposals state
  opened : ∀ proposal state published,
    (answer (.host (.publish proposal)) state).1 = .ok published →
      ∃ existing : Existing, existing.branch = proposal.branch ∧ existing.state = .opened ∧
        (proposals (answer (.host (.publish proposal)) state).2).Perm
          (existing :: proposals state)

/-- The proposal is the open one that an attempt has added. -/
def IsAddedBy (existing : Existing) (opened : Proposal × Published) : Prop :=
  existing.branch = opened.1.branch ∧ existing.state = .opened

/-- The service shows what it has shown before and what attempts have added, and
the attempts were made for the packages. -/
structure Shows (proposals : σ → List Existing) (before : List Existing)
    (packages : List Package) (state : σ × List Attempt) : Prop where
  added : ∃ added, (proposals state.1).Perm (added ++ before) ∧
    List.Forall₂ IsAddedBy added (Attempt.opened state.2)
  made : ∀ attempt ∈ state.2, attempt.proposal.package ∈ packages.map Package.name

variable {proposals : σ → List Existing}

/-- One question adds what its attempt has opened, and nothing else. -/
theorem IsTruthful.step (htruthful : IsTruthful answer proposals) {package : Package}
    {question : Question} (hasks : MayAsk config.dryRun package question) (state : σ) :
    ∃ added, (proposals (answer question state).2).Perm (added ++ proposals state) ∧
      List.Forall₂ IsAddedBy added
        (Attempt.opened (attempt? question (answer question state).1).toList) := by
  match question with
  | .fetch distribution =>
      exact ⟨[], .of_eq (htruthful.fetch distribution state), .nil⟩
  | .host (.find query) => exact ⟨[], .of_eq (htruthful.find query state), .nil⟩
  | .host (.issue title body) => exact hasks.elim
  | .host (.publish proposal) =>
      simp only [attempt?, Hosting.attempt?, Option.toList_some]
      cases hreply : (answer (.host (.publish proposal)) state).1 with
      | error error =>
          exact ⟨[], .of_eq (htruthful.refused proposal state error hreply), .nil⟩
      | ok published =>
          obtain ⟨existing, hbranch, hopened, hshown⟩ :=
            htruthful.opened proposal state published hreply
          exact ⟨[existing], hshown, .cons ⟨hbranch, hopened⟩ .nil⟩

theorem Shows.step (htruthful : IsTruthful answer proposals) {before : List Existing}
    {package : Package} (hmem : package ∈ packages) {question : Question}
    (hasks : MayAsk config.dryRun package question) {state : σ × List Attempt}
    (hshows : Shows proposals before packages state) :
    Shows proposals before packages (noting attempt? answer question state).2 := by
  obtain ⟨⟨earlier, hearlier, hopened⟩, hmade⟩ := hshows
  obtain ⟨added, hadded, hnew⟩ := htruthful.step hasks state.1
  constructor
  · refine ⟨earlier ++ added, ?_, ?_⟩
    · refine (hadded.trans (hearlier.append_left added)).trans ?_
      rw [← List.append_assoc]
      exact List.perm_append_comm.append_right before
    · rw [noting, Attempt.opened_append]
      exact List.rel_append hopened hnew
  · refine List.forall_mem_append.2 ⟨hmade, fun attempt hattempt => ?_⟩
    rw [package_of_attempt hasks hattempt]
    exact List.mem_map_of_mem hmem

/-- What happens in a run happens in the same way when it is noted. -/
theorem Pool.Step.noted {pool after : Pool σ} (hstep : Pool.Step config answer pool after)
    (attempts : List Attempt) : ∃ more,
      Pool.Step config (noting attempt? answer) ⟨pool.jobs, pool.slots, (pool.state, attempts)⟩
        ⟨after.jobs, after.slots, (after.state, more)⟩ := by
  cases hstep with
  | begin hroom => exact ⟨attempts, .begin hroom⟩
  | ask => exact ⟨_, .ask⟩
  | finish => exact ⟨attempts, .finish⟩
  | record => exact ⟨attempts, .record⟩

theorem Pool.Reaches.noted {pool after : Pool σ} (hreaches : Pool.Reaches config answer pool after)
    (attempts : List Attempt) : ∃ more,
      Pool.Reaches config (noting attempt? answer) ⟨pool.jobs, pool.slots, (pool.state, attempts)⟩
        ⟨after.jobs, after.slots, (after.state, more)⟩ := by
  induction hreaches with
  | refl => exact ⟨attempts, .refl⟩
  | tail _ hstep ih =>
      obtain ⟨middle, hreaches⟩ := ih
      obtain ⟨more, hnoted⟩ := hstep.noted middle
      exact ⟨more, .tail hreaches hnoted⟩

end Noted

section Agreement

variable {σ : Type}

/-- The entries of a live run, and what the service shows after it, agree on
the attempts that were made. -/
structure Agrees (packages : List Package) (before after : List Existing)
    (entries : List Entry) (attempts : List Attempt) : Prop where
  /-- Each entry is of its package and tells what was opened for that package. -/
  settled : List.Forall₂ (fun package entry => entry.package = package.name ∧
    Settled package entry (Attempt.opened (madeFor package.name attempts))) packages entries
  /-- The proposals that were added are those that attempts have opened, and they
  are on the branches of the entries that are proposed. -/
  added : ∃ added, after.Perm (added ++ before) ∧
    List.Forall₂ IsAddedBy added (Attempt.opened attempts) ∧
    (added.map Existing.branch).Perm (entries.filterMap branchOf?)
  counted : ∀ config startedAt finishedAt,
    let report := Run.report config startedAt finishedAt entries
    report.proposedCount + report.skippedCount + report.reviewCount + report.failedCount =
      packages.length

/-- What was opened for one package after the other are the branches of the
entries. -/
theorem branches_of_settled {packages : List Package} {entries : List Entry}
    {attempts : List Attempt}
    (hsettled : List.Forall₂ (fun package entry => entry.package = package.name ∧
      Settled package entry (Attempt.opened (madeFor package.name attempts))) packages entries) :
    (Attempt.opened ((packages.map Package.name).flatMap fun stub => madeFor stub attempts)).map
        (fun made => made.1.branch) = entries.filterMap branchOf? := by
  induction hsettled with
  | nil => rfl
  | @cons package entry packages entries hentry _ ih =>
      rw [List.map_cons, List.flatMap_cons, Attempt.opened_append, List.map_append, ih,
        hentry.2.branches, List.filterMap_cons]
      cases branchOf? entry <;> rfl

/-- However the tasks of a live run take their steps, and whichever of their
questions fail, the run comes to its end, and then its report and the service
agree. -/
theorem report_agrees {config : Config} {packages : List Package}
    {answer : (question : Question) → σ → Reply question × σ} {proposals : σ → List Existing}
    (hlive : config.dryRun = false) (hdistinct : (packages.map Package.name).Nodup)
    (htruthful : IsTruthful answer proposals) (origin : σ) {pool : Pool σ}
    (hreaches : Pool.Reaches config answer (Pool.start config packages origin) pool) :
    (∃ last, Pool.Reaches config answer pool last ∧ last.jobs = []) ∧
      (pool.jobs = [] → ∃ attempts,
        Pool.Reaches config (noting attempt? answer) (Pool.start config packages (origin, []))
            ⟨pool.jobs, pool.slots, (pool.state, attempts)⟩ ∧
          Agrees packages (proposals origin) (proposals pool.state) (pool.collected packages)
            attempts) := by
  refine ⟨Pool.exists_reaches_finished config answer pool, fun hjobs => ?_⟩
  obtain ⟨attempts, hnoted⟩ := hreaches.noted []
  refine ⟨attempts, hnoted, ?_⟩
  have hstart : Pool.Ledger (Owed config) packages (Pool.start config packages (origin, [])) :=
    Pool.start_ledger fun package _ => task_paces config package
  have hshows : Shows proposals (proposals origin) packages (origin, []) :=
    ⟨⟨[], .refl _, .nil⟩, List.forall_mem_nil _⟩
  obtain ⟨hledger, ⟨added, hadded, hopened⟩, hmade⟩ := hstart.reaches
    (owed_isKept hdistinct) (Shows proposals (proposals origin) packages)
    (fun package hmem question next state howed hshows =>
      hshows.step htruthful hmem howed.1) hshows hnoted
  have hsettled : List.Forall₂ (fun package entry => entry.package = package.name ∧
      Settled package entry (Attempt.opened (madeFor package.name attempts))) packages
      (pool.collected packages) := by
    refine (hledger.collected hjobs).imp fun package entry hreported => ?_
    obtain ⟨hpackage, htallies⟩ := hreported
    rw [hlive] at htallies
    exact ⟨hpackage, settled_of_tallies htallies⟩
  constructor
  · exact hsettled
  · refine ⟨added, hadded, hopened, ?_⟩
    have hbranches : added.map Existing.branch =
        (Attempt.opened attempts).map fun made => made.1.branch := by
      rw [← List.forall₂_eq_eq_eq, List.forall₂_map_left_iff, List.forall₂_map_right_iff]
      exact hopened.imp fun _ _ hsame => hsame.1
    rw [hbranches, ← branches_of_settled hsettled]
    exact ((perm_flatMap_madeFor hdistinct hmade).filterMap _).map _
  · intro config startedAt finishedAt
    exact (Report.counts_add _).trans hsettled.length_eq.symm

end Agreement

namespace AgreesExample

open Hosting (Memory)

def config : Config where
  exclude := ["far"]

/-- A stub package whose distribution has the same name. -/
def stubs (name : String) : Package where
  name := name
  distribution := name
  minVersion := ⟨"1.1.*", ⟨0, [1, 1], none, none, none, none⟩, true⟩
  metadataSource := "version = \"1.1.*\"\n"

def packages : List Package :=
  [stubs "cut", stubs "left", stubs "right", stubs "far"]

/-- The first publication is lost, and then one branch is taken. -/
def origin : Memory where
  proposals := [⟨1, "stubsabot/old/bump-2.0", "https://example.com/pull/1", .closed⟩]
  taken := ["stubsabot/left/bump-1.2"]
  publishErrors := [.timeout "create pull request"]

def answer : (question : Question) → Memory → Reply question × Memory
  | .fetch _, memory =>
      (.ok [⟨⟨0, [1, 2], none, none, none, none⟩, "1.2", none, false, false, false⟩], memory)
  | .host question, memory => memory.answer question

theorem answer_isTruthful : IsTruthful answer Memory.proposals where
  fetch distribution memory := rfl
  find query memory := by
    simp only [answer, Memory.answer, Memory.find]
    split <;> rfl
  refused proposal memory error hreply := by
    simp only [answer, Memory.answer, Memory.publish] at hreply ⊢
    split
    · rfl
    · split
      · rfl
      · simp_all
  opened proposal memory published hreply := by
    simp only [answer, Memory.answer, Memory.publish] at hreply ⊢
    split
    · simp_all
    · split
      · simp_all
      · exact ⟨_, rfl, rfl, List.perm_append_singleton _ _⟩

/-- The tasks have been carried out one after the other. -/
def pool : Pool Memory :=
  ⟨[], ((entries config packages).run answer origin).1.map some,
    ((entries config packages).run answer origin).2⟩

theorem pool_agrees_with_report :
    config.dryRun = false ∧ (packages.map Package.name).Nodup ∧
      IsTruthful answer Memory.proposals ∧
      Pool.Reaches config answer (Pool.start config packages origin) pool ∧
      (∃ attempts, Agrees packages origin.proposals pool.state.proposals
        (pool.collected packages) attempts) ∧
      pool.state.proposals.map Existing.branch =
        ["stubsabot/old/bump-2.0", "stubsabot/left/bump-1.2-2", "stubsabot/right/bump-1.2"] ∧
      (pool.collected packages).map branchOf? =
        [none, some "stubsabot/left/bump-1.2-2", some "stubsabot/right/bump-1.2", none] := by
  have hdistinct : (packages.map Package.name).Nodup := by decide
  have hreaches : Pool.Reaches config answer (Pool.start config packages origin) pool :=
    Pool.start_reaches_entries config packages origin
  obtain ⟨attempts, _, hagrees⟩ :=
    (report_agrees rfl hdistinct answer_isTruthful origin hreaches).2 rfl
  exact ⟨rfl, hdistinct, answer_isTruthful, hreaches, ⟨attempts, hagrees⟩, by decide +kernel,
    by decide +kernel⟩

end AgreesExample

end Run

end StubSync
