/-
A run that is carried out again.

When a task has come to its end, the same task would only look, or try branches
that are taken; that stays so while the other tasks go on, since they change
nothing that this one can see.  So a second run asks idle questions only,
whatever the order of its steps.  It finds the board as the first run left it,
and what was proposed then is a duplicate now.
-/
import StubSync.Proofs.Run.Pool

namespace StubSync

namespace Hosting

namespace Board

variable {σ : Type} {board : Board σ} {before after : σ}

/-- The question looks for proposals, or asks for a branch that is taken. -/
def IsIdle (board : Board σ) (state : σ) : Question → Prop
  | .find _ => True
  | .publish proposal => board.taken state proposal.branch = true
  | .issue _ _ => False

/-- Idle questions lead from one state to the other. -/
def Idles (board : Board σ) : σ → σ → Prop :=
  Relation.ReflTransGen fun before after =>
    ∃ question, board.IsIdle before question ∧ after = (board.answer question before).2

theorem IsExact.same_of_isIdle (hboard : board.IsExact) {question : Question} {state : σ}
    (hidle : board.IsIdle state question) :
    board.Same state (board.answer question state).2 := by
  cases question with
  | find query => exact (hboard.find query state).2
  | publish proposal => exact (hboard.conflict proposal state hidle).2
  | issue title body => exact hidle.elim

theorem Idles.same (hboard : board.IsExact) (hidles : board.Idles before after) :
    board.Same before after := by
  induction hidles with
  | refl => exact ⟨rfl, rfl⟩
  | tail _ hstep ih =>
      obtain ⟨question, hidle, rfl⟩ := hstep
      have hsame := hboard.same_of_isIdle hidle
      exact ⟨hsame.proposals.trans ih.proposals, hsame.taken.trans ih.taken⟩

end Board

/-- Idle questions leave the service that is kept in memory as it is. -/
theorem Memory.eq_of_idles {before after : { memory : Memory // memory.IsCalm }}
    (hidles : board.Idles before after) : after = before := by
  induction hidles with
  | refl => rfl
  | @tail state _ _ hstep ih =>
      obtain ⟨question, hidle, rfl⟩ := hstep
      rw [← ih]
      apply Subtype.ext
      cases question with
      | find query => exact congrArg Prod.snd (answer_find state.2 query)
      | publish proposal =>
          have htaken : state.1.taken.contains proposal.branch = true := hidle
          have hanswer := answer_publish state.2 proposal
          rw [if_pos htaken] at hanswer
          exact congrArg Prod.snd hanswer
      | issue title body => exact hidle.elim

end Hosting

namespace Run

open Hosting (Board)

variable {σ : Type}

section Repetition

variable {config : Config} {fetched : Releases} {board : Board σ}

theorem answer_idles {stub : String} {question : Question} {state : σ}
    (howns : Owns stub question) (hquiet : IsQuiet (board.sight stub state) question) :
    board.Idles state (answer fetched board question state).2 := by
  match question with
  | .fetch distribution => exact .refl
  | .host (.find query) => exact .single ⟨.find query, trivial, rfl⟩
  | .host (.publish proposal) =>
      have htaken : (board.sight stub state).taken proposal.branch = true := hquiet
      rw [board.sight_taken state howns] at htaken
      exact .single ⟨.publish proposal, htaken, rfl⟩
  | .host (.issue title body) => exact howns.elim

/-- The task of a live run ends where it would stay if it were carried out
again. -/
theorem task_repeats (hlive : config.dryRun = false) (package : Package)
    (sight : Board.Sight) {address : String → String} :
    Ends fetched address package.name (Owns package.name)
      (fun entry later => Stays fetched address package.name (task config package) later
        entry.again) (task config package) sight := by
  rcases task_ends config package sight with
    ⟨entry, hstays, hproposed⟩ | ⟨entry, branch, hsettles, hagain⟩
  · refine Ends.mono hstays (fun _ hquiet => hquiet.1) ?_
    rintro result later ⟨rfl, rfl⟩
    rw [Entry.again_of_not_proposed (hproposed hlive)]
    exact hstays
  · refine (settles_iff_ends.1 hsettles).mono (fun _ howns => howns) ?_
    rintro result later ⟨rfl, hmarks⟩
    exact hagain later (hmarks.mem_iff.2 List.mem_cons_self)

end Repetition

namespace Pool

section Rests

variable {config : Config} {fetched : Releases} {board : Board σ} {packages : List Package}

/-- The task of the package would stay where it is, with the entry it has
alone. -/
def Rests (config : Config) (fetched : Releases) (board : Board σ) (state : σ)
    (package : Package) : Prop :=
  Stays fetched board.address package.name (task config package)
    (board.sight package.name state) (alone config fetched board state package)

theorem rests_of_stays (hboard : board.IsExact) {package : Package} {state : σ} {entry : Entry}
    (hstays : Stays fetched board.address package.name (task config package)
      (board.sight package.name state) entry) :
    Rests config fetched board state package ∧
      alone config fetched board state package = entry := by
  have halone : alone config fetched board state package = entry := (hstays.run hboard).1
  refine ⟨?_, halone⟩
  rw [Rests, halone]
  exact hstays

section Reached

variable (hboard : board.IsExact)
  (hnames : ∀ package ∈ packages, Proposal.IsStubName package.name)
  (hdistinct : (packages.map Package.name).Nodup)

include hboard hnames hdistinct

/-- After a live run every task rests, and alone it would say again what was
said. -/
theorem rests_of_reaches (hlive : config.dryRun = false) {origin : σ} {pool : Pool σ}
    (hreaches : Reaches config (answer fetched board) (start config packages origin) pool)
    (hjobs : pool.jobs = []) :
    (∀ package ∈ packages, Rests config fetched board pool.state package) ∧
      packages.map (alone config fetched board pool.state) =
        (pool.collected packages).map Entry.again := by
  have hstart : Books fetched board (fun package => Owns package.name)
      (fun package entry sight => Stays fetched board.address package.name
        (task config package) sight entry.again) packages (start config packages origin) :=
    start_books fun package _ => task_repeats hlive package _
  have hkeeps : ∀ package ∈ packages, ∀ question, Owns package.name question →
      ∀ _ : σ, True → True := fun _ _ _ _ _ hkept => hkept
  obtain ⟨hbooks, -⟩ :=
    hstart.reaches hboard hnames hdistinct (fun _ _ howns => howns) hkeeps trivial hreaches
  have hrests := (hbooks.collected hjobs).imp fun _ _ hstays => rests_of_stays hboard hstays
  rw [List.forall₂_and_left] at hrests
  rw [← List.forall₂_eq_eq_eq, List.forall₂_map_left_iff, List.forall₂_map_right_iff]
  exact hrests

/-- Where every task rests, a run is idle, and every package has the entry that
its task has alone. -/
theorem reaches_of_rests {origin : σ}
    (hrests : ∀ package ∈ packages, Rests config fetched board origin package) {pool : Pool σ}
    (hreaches : Reaches config (answer fetched board) (start config packages origin) pool)
    (hjobs : pool.jobs = []) :
    board.Idles origin pool.state ∧
      pool.collected packages = packages.map (alone config fetched board origin) := by
  let asks (package : Package) (question : Question) : Prop :=
    Owns package.name question ∧ IsQuiet (board.sight package.name origin) question
  have hstart : Books fetched board asks
      (fun package entry _ => entry = alone config fetched board origin package) packages
      (start config packages origin) := by
    refine start_books fun package hmem =>
      Ends.mono (hrests package hmem) (fun _ hquiet => hquiet) ?_
    rintro entry later ⟨hentry, _⟩
    exact hentry
  have hkeeps : ∀ package ∈ packages, ∀ question, asks package question → ∀ state,
      board.Idles origin state →
        board.Idles origin (answer fetched board question state).2 := by
    rintro package _ question ⟨howns, hquiet⟩ state hidles
    rw [← (hidles.same hboard).sight package.name] at hquiet
    exact hidles.trans (answer_idles howns hquiet)
  obtain ⟨hbooks, hidles⟩ := hstart.reaches hboard hnames hdistinct
    (fun _ _ hasks => hasks.1) hkeeps .refl hreaches
  refine ⟨hidles, ?_⟩
  rw [← List.forall₂_eq_eq_eq, List.forall₂_map_right_iff]
  exact (hbooks.collected hjobs).flip

end Reached

/-- A live run that follows on another changes nothing that the board shows,
since it asks idle questions only.  It says again what the first run said, but
for the proposals: they are duplicates now, with the same action and without a
diff. -/
theorem second_run_repeats (hboard : board.IsExact) (hlive : config.dryRun = false)
    (hnames : ∀ package ∈ packages, Proposal.IsStubName package.name)
    (hdistinct : (packages.map Package.name).Nodup) {origin : σ} {first second : Pool σ}
    (hfirst : Reaches config (answer fetched board) (start config packages origin) first)
    (hended : first.jobs = [])
    (hsecond : Reaches config (answer fetched board) (start config packages first.state) second)
    (hended' : second.jobs = []) :
    board.Idles first.state second.state ∧ board.Same first.state second.state ∧
      second.collected packages = (first.collected packages).map Entry.again := by
  obtain ⟨hrests, hagain⟩ := rests_of_reaches hboard hnames hdistinct hlive hfirst hended
  obtain ⟨hidles, hcollected⟩ :=
    reaches_of_rests hboard hnames hdistinct hrests hsecond hended'
  exact ⟨hidles, hidles.same hboard, hcollected.trans hagain⟩

end Rests

namespace AgreementExample

/-- The tasks are carried out again, one after the other. -/
def secondPool : Pool { memory : Hosting.Memory // memory.IsCalm } :=
  let again := (entries config packages).run (answer fetched Hosting.Memory.board) pool.state
  ⟨[], again.1.map some, again.2⟩

theorem start_reaches_secondPool :
    Reaches config (answer fetched Hosting.Memory.board) (start config packages pool.state)
      secondPool :=
  start_reaches_entries config packages pool.state

/-- The proposal on the twin branch is recognised, and the memory is the same as
before. -/
theorem second_run_recognises_twin :
    secondPool.state = pool.state ∧
      secondPool.collected packages = (pool.collected packages).map Entry.again ∧
      (secondPool.collected packages).map Entry.outcome =
        [.skipped (some (.update ⟨0, [1, 1], none, none, none, none⟩
            ⟨0, [1, 2], none, none, none, none⟩)) .duplicate,
          .failed "rate limit exceeded for PyPI registry", .skipped none .filtered] := by
  have hnames : ∀ package ∈ packages, Proposal.IsStubName package.name := by decide
  have hdistinct : (packages.map Package.name).Nodup := by decide
  obtain ⟨hidles, _, hagain⟩ := second_run_repeats Hosting.Memory.board_isExact rfl hnames
    hdistinct start_reaches rfl start_reaches_secondPool rfl
  have houtcomes : ((pool.collected packages).map Entry.again).map Entry.outcome =
      [.skipped (some (.update ⟨0, [1, 1], none, none, none, none⟩
          ⟨0, [1, 2], none, none, none, none⟩)) .duplicate,
        .failed "rate limit exceeded for PyPI registry", .skipped none .filtered] := by
    decide +kernel
  exact ⟨Hosting.Memory.eq_of_idles hidles, hagain,
    (congrArg (List.map Entry.outcome) hagain).trans houtcomes⟩

end AgreementExample

end Pool

end Run

end StubSync
