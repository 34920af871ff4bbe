/-
Runs at different action levels.

The level decides one thing only: whether an action may become a proposal.  So a
task takes the same course at two levels, or it stops at the lower one, having
asked for its releases and nothing else.  The tasks of a run do not depend on each
other, so what holds of each of them holds of runs, whatever order their steps are
taken in.
-/
import StubSync.Proofs.Run.Pool

namespace StubSync

section Severities

variable {low high : Level} {severity : Severity}

theorem Severity.allowedAt_mono (hlevels : low ≤ high) (hallowed : severity.allowedAt low = true) :
    severity.allowedAt high = true := by
  cases severity with
  | informational => rfl
  | requires required =>
      have hlow : required.rank ≤ low.rank := of_decide_eq_true hallowed
      exact decide_eq_true (Nat.le_trans hlow hlevels)

/-- What is not allowed at a level requires more. -/
theorem Severity.exists_requires {level : Level} (hallowed : severity.allowedAt level = false) :
    ∃ required, severity = .requires required ∧ level.rank < required.rank := by
  cases severity with
  | informational => cases hallowed
  | requires required =>
      exact ⟨required, rfl, Nat.lt_of_not_le (of_decide_eq_false hallowed)⟩

theorem RunFilter.permits_mono {lower upper : RunFilter} (hlevels : lower.level ≤ upper.level)
    {action : Action} (hpermits : lower.permits action = true) : upper.permits action = true := by
  obtain ⟨hproposable, hallowed⟩ := Bool.and_eq_true_iff.1 hpermits
  exact Bool.and_eq_true_iff.2 ⟨hproposable, Severity.allowedAt_mono hlevels hallowed⟩

/-- Whatever changes metadata requires more than the lowest level. -/
theorem RunFilter.permits_obsoleteOnly {filter : RunFilter} (hlevel : filter.level = .obsoleteOnly)
    (action : Action) : filter.permits action = false := by
  rw [permits, hlevel]
  cases action with
  | rest reason => rfl
  | review reason => rfl
  | markObsolete since => rfl
  | update current target =>
      rw [Action.severity]
      split <;> rfl

end Severities

/-- The package was passed over for an action that requires more than the level. -/
def Entry.StopsAt (level : Level) (entry : Entry) : Prop :=
  ∃ action required, entry.outcome = .skipped (some action) .belowActionLevel ∧
    action.severity = .requires required ∧ level.rank < required.rank

namespace Hosting

namespace Board

variable {σ : Type} {board : Board σ} {origin before after : σ} {branches : List String}

/-- From one state to the other, open proposals on the branches have come to what
the board shows, and its other marks are the same. -/
def Adds (board : Board σ) (branches : List String) (before after : σ) : Prop :=
  (board.marks after).Perm
    (branches.map (fun branch => (branch, ProposalState.opened)) ++ board.marks before)

theorem Adds.same (hadds : board.Adds branches origin before) (hsame : board.Same before after) :
    board.Adds branches origin after := by
  rw [Adds, marks, hsame.proposals]
  exact hadds

theorem Adds.opens {branch : String} (hadds : board.Adds branches origin before)
    (hopens : board.Opens branch before after) : board.Adds (branch :: branches) origin after := by
  obtain ⟨earlier, later, hbefore, hafter⟩ := hopens.exists_marks
  rw [Adds, hbefore] at hadds
  rw [Adds, hafter]
  exact List.perm_middle.trans (hadds.cons _)

/-- Where more is shown in the end, more was added. -/
theorem Adds.subperm_of_marks {others : List String} {left right : σ}
    (hleft : board.Adds branches origin left) (hright : board.Adds others origin right)
    (hmarks : (board.marks left).Subperm (board.marks right)) : branches.Subperm others := by
  have hadded := (List.Perm.subperm hleft.symm).trans (hmarks.trans (List.Perm.subperm hright))
  rw [List.subperm_append_right, List.map_subperm_map_iff] at hadded
  · exact hadded
  · intro branch other heq
    exact congrArg Prod.fst heq

end Board

end Hosting

namespace Run

open Hosting (Board)

/-- The same run at another level. -/
def Config.atLevel (config : Config) (level : Level) : Config :=
  { config with level := level }

section Tasks

variable {low high : Level}

/-- What is not permitted at the lower level is left at once, and anything else is
carried out as at the higher level. -/
theorem act_atLevel (hlevels : low ≤ high) (config : Config) (package : Package)
    (latest : Option Version) (action : Action) :
    act (config.atLevel low) package latest action =
        act (config.atLevel high) package latest action ∨
      ∃ entry : Entry, entry.StopsAt low ∧
        act (config.atLevel low) package latest action = pure entry := by
  have hproposes (hproposable : action.isProposable = true) (entry : Entry)
      (hentry : entry.outcome = .skipped (some action) .belowActionLevel)
      (proposes : Exchange Entry) :
      (if (config.atLevel low).filter.permits action then proposes else pure entry) =
          (if (config.atLevel high).filter.permits action then proposes else pure entry) ∨
        ∃ entry' : Entry, entry'.StopsAt low ∧
          (if (config.atLevel low).filter.permits action then proposes else pure entry) =
            pure entry' := by
    by_cases hpermits : (config.atLevel low).filter.permits action = true
    · have hmore : (config.atLevel high).filter.permits action = true :=
        RunFilter.permits_mono hlevels hpermits
      rw [if_pos hpermits, if_pos hmore]
      exact Or.inl rfl
    · have hallowed : action.severity.allowedAt low = false := by
        rw [RunFilter.permits, hproposable, Bool.true_and] at hpermits
        exact eq_false_of_ne_true hpermits
      obtain ⟨required, hseverity, hrank⟩ := Severity.exists_requires hallowed
      rw [if_neg hpermits]
      exact Or.inr ⟨entry, ⟨action, required, hentry, hseverity, hrank⟩, rfl⟩
  cases action with
  | rest reason => exact Or.inl rfl
  | review reason => exact Or.inl rfl
  | update current target => exact hproposes rfl _ rfl _
  | markObsolete since => exact hproposes rfl _ rfl _

variable {σ : Type}

/-- The task of a package takes the same course at both levels, or it stops at the
lower one and the board is as it was. -/
theorem task_atLevel (hlevels : low ≤ high) (config : Config) (fetched : Releases)
    (board : Board σ) (package : Package) (origin : σ) :
    (task (config.atLevel low) package).run (answer fetched board) origin =
        (task (config.atLevel high) package).run (answer fetched board) origin ∨
      ∃ entry : Entry, entry.StopsAt low ∧
        (task (config.atLevel low) package).run (answer fetched board) origin =
          (entry, origin) := by
  unfold task
  have hfilter : (config.atLevel low).filter.processes package.name =
      (config.atLevel high).filter.processes package.name := rfl
  rw [hfilter]
  split
  · simp only [process, fetch, Interaction.run_bind, Interaction.run_query, answer]
    cases fetched package.distribution with
    | error error => exact Or.inl rfl
    | ok releases =>
        dsimp only
        rcases act_atLevel hlevels config package
          ((Release.latest? releases package.prerelease).map Release.version)
          (classify package releases) with hsame | ⟨entry, hstops, hact⟩
        · rw [hsame]
          exact Or.inl rfl
        · rw [hact]
          exact Or.inr ⟨entry, hstops, rfl⟩
  · exact Or.inl rfl

variable {config : Config}

theorem act_obsoleteOnly (hlevel : config.level = .obsoleteOnly) (package : Package)
    (latest : Option Version) (action : Action) :
    ∃ entry : Entry, entry.outcome.isProposed = false ∧
      act config package latest action = pure entry := by
  have hpermits : ¬config.filter.permits action = true := by
    rw [RunFilter.permits_obsoleteOnly hlevel action]
    exact Bool.false_ne_true
  cases action with
  | rest reason => exact ⟨_, rfl, rfl⟩
  | review reason => exact ⟨_, rfl, rfl⟩
  | update current target => exact ⟨_, rfl, if_neg hpermits⟩
  | markObsolete since => exact ⟨_, rfl, if_neg hpermits⟩

/-- At the lowest level a task looks for releases and proposes nothing, whatever it
is answered. -/
theorem task_obsoleteOnly (hlevel : config.level = .obsoleteOnly) (package : Package) :
    (task config package).Paces attempt? (fun _ question => ∃ name, question = .fetch name)
      (fun entry _ => entry.outcome.isProposed = false) [] := by
  unfold task
  split
  · refine ⟨⟨_, rfl⟩, fun reply => ?_⟩
    cases reply with
    | error error => rfl
    | ok releases =>
        obtain ⟨entry, hentry, hact⟩ := act_obsoleteOnly hlevel package
          ((Release.latest? releases package.prerelease).map Release.version)
          (classify package releases)
        change (act config package _ _).Paces _ _ _ _
        rw [hact]
        exact hentry
  · rfl

end Tasks

namespace Pool

section Runs

variable {σ : Type} {config : Config} {fetched : Releases} {board : Board σ} {origin : σ}
  {packages : List Package} {low high : Level}

/-- No task takes a mark away from its package. -/
theorem sight_subperm_aloneMarks (hboard : board.IsExact) (package : Package) :
    (board.sight package.name origin).marks.Subperm
      (aloneMarks config fetched board origin package) := by
  have hends : StaysOrOpens fetched board.address package.name config.dryRun
      (task config package) (board.sight package.name origin) := task_ends config package _
  rcases hends with ⟨entry, hstays, -⟩ | ⟨entry, branch, hsettles, -⟩
  · obtain ⟨-, hmarks⟩ := (settles_iff_ends.1 hstays.settles).run hboard
    exact hmarks.symm.subperm
  · obtain ⟨-, hmarks⟩ := (settles_iff_ends.1 hsettles).run hboard
    exact (List.sublist_cons_self _ _).subperm.trans hmarks.symm.subperm

theorem alone_atLevel (hlevels : low ≤ high) (package : Package) :
    alone (config.atLevel low) fetched board origin package =
        alone (config.atLevel high) fetched board origin package ∨
      (alone (config.atLevel low) fetched board origin package).StopsAt low := by
  rcases task_atLevel hlevels config fetched board package origin with
    hsame | ⟨entry, hstops, hrun⟩
  · rw [alone, alone, hsame]
    exact Or.inl rfl
  · rw [alone, hrun]
    exact Or.inr hstops

theorem aloneMarks_atLevel (hboard : board.IsExact) (hlevels : low ≤ high) (package : Package) :
    (aloneMarks (config.atLevel low) fetched board origin package).Subperm
      (aloneMarks (config.atLevel high) fetched board origin package) := by
  rcases task_atLevel hlevels config fetched board package origin with
    hsame | ⟨entry, -, hrun⟩
  · rw [aloneMarks, aloneMarks, hsame]
  · rw [aloneMarks, hrun]
    exact sight_subperm_aloneMarks hboard package

/-- A question of a package opens a proposal on one branch, or leaves all marks as
they are. -/
theorem exists_adds_of_answer (hboard : board.IsExact) {stub : String} {question : Question}
    (howns : Owns stub question) {state : σ} (hadds : ∃ branches, board.Adds branches origin state) :
    ∃ branches, board.Adds branches origin (answer fetched board question state).2 := by
  obtain ⟨branches, hadds⟩ := hadds
  rcases answer_cases hboard howns state with hsame | ⟨branch, -, hopens⟩
  · exact ⟨branches, hadds.same hsame⟩
  · exact ⟨branch :: branches, hadds.opens hopens⟩

/-- Whatever order the steps of a run are taken in, it opens proposals and does
nothing else to the marks. -/
theorem exists_adds_of_reaches (hboard : board.IsExact)
    (hnames : ∀ package ∈ packages, Proposal.IsStubName package.name)
    (hdistinct : (packages.map Package.name).Nodup) {pool : Pool σ}
    (hreaches : Reaches config (answer fetched board) (start config packages origin) pool) :
    ∃ branches, board.Adds branches origin pool.state := by
  have hstart : Accounts config fetched board origin packages (start config packages origin) :=
    start_accounts hboard packages
  have hkeeps : ∀ package ∈ packages, ∀ question, Owns package.name question → ∀ state,
      (∃ branches, board.Adds branches origin state) →
        ∃ branches, board.Adds branches origin (answer fetched board question state).2 :=
    fun _ _ _ howns _ hadds => exists_adds_of_answer hboard howns hadds
  exact ((accounts_iff_books.1 hstart).1.reaches hboard hnames hdistinct
    (fun _ _ howns => howns) hkeeps ⟨[], .refl _⟩ hreaches).2

/-- A run at the lowest level leaves the board as it is. -/
theorem reaches_obsoleteOnly (hlevel : config.level = .obsoleteOnly) {pool : Pool σ}
    (hreaches : Reaches config (answer fetched board) (start config packages origin) pool) :
    pool.state = origin ∧
      (pool.jobs = [] → ∀ entry ∈ pool.collected packages, entry.outcome.isProposed = false) := by
  let owes : Package → Exchange Entry → σ → Prop := fun _ task _ =>
    ∃ attempts, task.Paces attempt? (fun _ question => ∃ name, question = .fetch name)
      (fun entry _ => entry.outcome.isProposed = false) attempts
  have hkept : IsKept (answer fetched board) owes packages := by
    constructor
    · rintro package _ question next state ⟨attempts, hpaces⟩
      exact ⟨_, hpaces.2 _⟩
    · intro place other package found _ _ _ question next state task _ htask
      exact htask
  have hkeeps : ∀ package ∈ packages, ∀ question next state,
      owes package (.ask question next) state → state = origin →
        (answer fetched board question state).2 = origin := by
    rintro package _ _ next state ⟨attempts, ⟨name, rfl⟩, _⟩ hstate
    exact hstate
  have hstart : Ledger owes packages (start config packages origin) :=
    start_ledger fun package _ => ⟨[], task_obsoleteOnly hlevel package⟩
  obtain ⟨hledger, hstate⟩ := hstart.reaches hkept (fun state => state = origin) hkeeps rfl hreaches
  refine ⟨hstate, fun hjobs => ?_⟩
  have hended : List.Forall₂ (fun (entry : Entry) (_ : Package) =>
      entry.outcome.isProposed = false ∧ True) (pool.collected packages) packages :=
    (hledger.collected hjobs).flip.imp fun _ _ ⟨_, hquiet⟩ => ⟨hquiet, trivial⟩
  exact ((List.forall₂_and_left _ _).1 hended).1

/-- Raising the level of a run only adds proposals.  Every package has the same
entry at both levels, unless it was passed over at the lower one for an action that
requires more; the branches that are opened at the lower level are among those
opened at the higher one; and at the lowest level the board stays as it is. -/
theorem raising_level_adds (config : Config) (fetched : Releases) (hboard : board.IsExact)
    (hnames : ∀ package ∈ packages, Proposal.IsStubName package.name)
    (hdistinct : (packages.map Package.name).Nodup) (hlevels : low ≤ high) (origin : σ) :
    (∀ level pool, Reaches (config.atLevel level) (answer fetched board)
        (start (config.atLevel level) packages origin) pool →
      ∃ last, Reaches (config.atLevel level) (answer fetched board) pool last ∧ last.jobs = []) ∧
    (∀ lower upper,
      Reaches (config.atLevel low) (answer fetched board)
        (start (config.atLevel low) packages origin) lower → lower.jobs = [] →
      Reaches (config.atLevel high) (answer fetched board)
        (start (config.atLevel high) packages origin) upper → upper.jobs = [] →
      List.Forall₂ (fun below above => below.package = above.package ∧
          (below = above ∨ below.StopsAt low))
        (lower.collected packages) (upper.collected packages) ∧
      ∃ few many, board.Adds few origin lower.state ∧ board.Adds many origin upper.state ∧
        few.Subperm many) ∧
    ∀ pool, Reaches (config.atLevel .obsoleteOnly) (answer fetched board)
        (start (config.atLevel .obsoleteOnly) packages origin) pool →
      pool.state = origin ∧
        (pool.jobs = [] → ∀ entry ∈ pool.collected packages,
          entry.outcome.isProposed = false) := by
  refine ⟨fun level pool _ => exists_reaches_finished _ _ pool, ?_,
    fun pool hreaches => reaches_obsoleteOnly rfl hreaches⟩
  intro lower upper hlower hended hupper hended'
  have hbelow : Accounts (config.atLevel low) fetched board origin packages lower :=
    (start_accounts hboard packages).reaches hboard hnames hdistinct hlower
  have habove : Accounts (config.atLevel high) fetched board origin packages upper :=
    (start_accounts hboard packages).reaches hboard hnames hdistinct hupper
  have hmarks : (board.marks lower.state).Subperm (board.marks upper.state) := by
    apply Board.subperm_of_marksOf packages fun package => Proposal.isOf package.name
    · intro package hmem
      have hsame := hbelow.marksOf_perm hended hmem
      have hsame' := habove.marksOf_perm hended' hmem
      exact hsame.subperm.trans
        ((aloneMarks_atLevel hboard hlevels package).trans hsame'.symm.subperm)
    · exact hbelow.foreign.trans habove.foreign.symm
  obtain ⟨few, hfew⟩ := exists_adds_of_reaches hboard hnames hdistinct hlower
  obtain ⟨many, hmany⟩ := exists_adds_of_reaches hboard hnames hdistinct hupper
  refine ⟨?_, few, many, hfew, hmany, hfew.subperm_of_marks hmany hmarks⟩
  rw [hbelow.collected_eq hended, habove.collected_eq hended', List.forall₂_map_left_iff,
    List.forall₂_map_right_iff, List.forall₂_same]
  intro package _
  exact ⟨(task_package _ _ package origin).trans (task_package _ _ package origin).symm,
    alone_atLevel hlevels package⟩

end Runs

namespace LevelsExample

def current : Version := ⟨0, [1, 1], none, none, none, none⟩

/-- A stub package whose distribution has the same name. -/
def stubs (name : String) : Package where
  name := name
  distribution := name
  minVersion := ⟨"1.1.*", current, true⟩
  metadataSource := "version = \"1.1.*\"\n"

def packages : List Package :=
  [stubs "minor", stubs "major", stubs "typed"]

def minor : Version := ⟨0, [1, 2], none, none, none, none⟩

def major : Version := ⟨0, [2, 0], none, none, none, none⟩

def fetched : Releases
  | "major" => .ok [⟨major, "2.0", none, false, false, false⟩]
  | "typed" => .ok [⟨minor, "1.2", none, false, false, true⟩]
  | _ => .ok [⟨minor, "1.2", none, false, false, false⟩]

/-- A rejected proposal of before, and a branch that is taken. -/
def origin : { memory : Hosting.Memory // memory.IsCalm } :=
  ⟨{ proposals := [⟨1, "stubsabot/major/bump-1.9", "https://example.com/pull/1", .closed⟩]
     taken := ["stubsabot/minor/bump-1.2"] }, rfl, rfl⟩

/-- The tasks have been carried out at a level, one after the other. -/
def pool (level : Level) : Pool { memory : Hosting.Memory // memory.IsCalm } :=
  let ended := (entries (Config.atLevel {} level) packages).run
    (answer fetched Hosting.Memory.board) origin
  ⟨[], ended.1.map some, ended.2⟩

/-- Two packages are passed over at the lower level, and the one that is not has
the same entry at both; at the lowest level there is nothing new. -/
theorem everything_adds_to_new_releases :
    (let lower := (pool .newReleases).collected packages
      let upper := (pool .everything).collected packages
      List.Forall₂ (fun below above => below.package = above.package ∧
          (below = above ∨ below.StopsAt .newReleases)) lower upper ∧
        lower.map Entry.outcome =
          [.proposed (.update current minor) "stubsabot/minor/bump-1.2-2"
              (some "https://example.com/pull/stubsabot/minor/bump-1.2-2"),
            .skipped (some (.update current major)) .belowActionLevel,
            .skipped (some (.markObsolete minor)) .belowActionLevel]) ∧
      (pool .newReleases).state.1.published.map Proposal.branch =
        ["stubsabot/minor/bump-1.2-2"] ∧
      (pool .everything).state.1.published.map Proposal.branch =
        ["stubsabot/minor/bump-1.2-2", "stubsabot/major/bump-2.0",
          "stubsabot/typed/obsolete-1.2"] ∧
      (pool .obsoleteOnly).state = origin := by
  have hnames : ∀ package ∈ packages, Proposal.IsStubName package.name := by decide
  have hdistinct : (packages.map Package.name).Nodup := by decide
  have hlevels : Level.newReleases ≤ Level.everything := by decide
  obtain ⟨_, hadds, hlowest⟩ := raising_level_adds {} fetched Hosting.Memory.board_isExact
    hnames hdistinct hlevels origin
  obtain ⟨hentries, _⟩ := hadds (pool .newReleases) (pool .everything)
    (start_reaches_entries _ _ _) rfl (start_reaches_entries _ _ _) rfl
  exact ⟨⟨hentries, by decide +kernel⟩, by decide +kernel, by decide +kernel,
    (hlowest (pool .obsoleteOnly) (start_reaches_entries _ _ _)).1⟩

end LevelsExample

end Pool

end Run

end StubSync
