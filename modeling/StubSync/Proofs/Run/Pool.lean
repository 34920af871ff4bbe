/-
Tasks that agree in whatever order they are carried out.

The jobs of a pool all speak to one board.  Each job owes the entry that its
task comes down to on its own; a step of another job changes nothing that it can
see, so what is owed stays the same until the entry is put in its place.
-/
import Mathlib.Logic.Hydra
import StubSync.Proofs.Run.Jobs
import StubSync.Proofs.Run.Task

namespace StubSync

namespace Run

open Hosting (Board)

namespace Pool

variable {σ : Type}

section Books

/-- Every package has a job that is yet to end as it has to, or an entry that one
has ended with; what the jobs ask is of a kind. -/
structure Books (fetched : Releases) (board : Board σ) (asks : Package → Question → Prop)
    (post : Package → Entry → Board.Sight → Prop) (packages : List Package) (pool : Pool σ) :
    Prop where
  length : pool.slots.length = packages.length
  nodup : (pool.jobs.map Prod.fst).Nodup
  owed : ∀ place job, (place, job) ∈ pool.jobs → ∃ package,
    packages[place]? = some package ∧
      Ends fetched board.address package.name (asks package) (post package) job.task
        (board.sight package.name pool.state)
  settled : ∀ place package, packages[place]? = some package →
    (∃ job, (place, job) ∈ pool.jobs) ∨
      ∃ entry, pool.slots[place]? = some (some entry) ∧
        post package entry (board.sight package.name pool.state)

variable {config : Config} {fetched : Releases} {board : Board σ} {origin : σ}
  {asks : Package → Question → Prop} {post : Package → Entry → Board.Sight → Prop}
  {packages : List Package}

/-- Books are a ledger in which every task owes its end on what its package
sees. -/
theorem books_iff_ledger {pool : Pool σ} :
    Books fetched board asks post packages pool ↔
      Ledger (fun package task state => Ends fetched board.address package.name (asks package)
        (post package) task (board.sight package.name state)) packages pool := by
  have hended (package : Package) (entry : Entry) (sight : Board.Sight) :
      post package entry sight ↔ Ends fetched board.address package.name (asks package)
        (post package) (.done entry) sight :=
    ⟨fun hpost => ⟨hpost, List.forall_mem_nil _⟩, fun hends => hends.1⟩
  constructor
  · intro hbooks
    refine ⟨hbooks.length, hbooks.nodup, hbooks.owed, fun place package hpackage => ?_⟩
    exact (hbooks.settled place package hpackage).imp_right
      fun ⟨entry, hslot, hentry⟩ => ⟨entry, hslot, (hended package entry _).1 hentry⟩
  · intro hledger
    refine ⟨hledger.length, hledger.nodup, hledger.owed, fun place package hpackage => ?_⟩
    exact (hledger.settled place package hpackage).imp_right
      fun ⟨entry, hslot, hentry⟩ => ⟨entry, hslot, (hended package entry _).2 hentry⟩

/-- At the start, every task owes its own end. -/
theorem start_books (hends : ∀ package ∈ packages,
      Ends fetched board.address package.name (asks package) (post package)
        (task config package) (board.sight package.name origin)) :
    Books fetched board asks post packages (start config packages origin) :=
  books_iff_ledger.2 (start_ledger hends)

/-- The run lemma, together with what questions of the kind do not change. -/
theorem Books.reaches (hboard : board.IsExact)
    (hnames : ∀ package ∈ packages, Proposal.IsStubName package.name)
    (hdistinct : (packages.map Package.name).Nodup)
    (howns : ∀ package question, asks package question → Owns package.name question)
    {keeps : σ → Prop}
    (hkeeps : ∀ package ∈ packages, ∀ question, asks package question → ∀ state, keeps state →
      keeps (answer fetched board question state).2)
    {pool after : Pool σ} (hbooks : Books fetched board asks post packages pool)
    (hstate : keeps pool.state) (hreaches : Reaches config (answer fetched board) pool after) :
    Books fetched board asks post packages after ∧ keeps after.state := by
  let owes : Package → Exchange Entry → σ → Prop := fun package task state =>
    Ends fetched board.address package.name (asks package) (post package) task
      (board.sight package.name state)
  have hkept : IsKept (answer fetched board) owes packages := by
    constructor
    · intro package _ question next state howed
      exact (Ends.step hboard howed).2
    · intro place other package found hpackage hfound hother question next state task howed htask
      have hasks := (Ends.step hboard howed).1
      have hsight : board.sight found.name (answer fetched board question state).2 =
          board.sight found.name state :=
        answer_sight hboard (howns package question hasks)
          (hnames package (List.mem_of_getElem? hpackage))
          (hnames found (List.mem_of_getElem? hfound))
          (name_ne hdistinct hfound hpackage hother) state
      simp only [owes, hsight]
      exact htask
  have hledger := (books_iff_ledger.1 hbooks).reaches hkept keeps
    (fun package hmem question next state howed =>
      hkeeps package hmem question (Ends.step hboard howed).1 state) hstate hreaches
  exact ⟨books_iff_ledger.2 hledger.1, hledger.2⟩

/-- Where no job is left, every package has an entry that it has ended with. -/
theorem Books.collected {pool : Pool σ} (hbooks : Books fetched board asks post packages pool)
    (hjobs : pool.jobs = []) :
    List.Forall₂ (fun package entry => post package entry (board.sight package.name pool.state))
      packages (pool.collected packages) :=
  ((books_iff_ledger.1 hbooks).collected hjobs).imp fun _ _ hended => hended.1

end Books

section Accounts

variable (config : Config) (fetched : Releases) (board : Board σ) (origin : σ)

/-- The entry of a package if its task is the only one. -/
def alone (package : Package) : Entry :=
  ((task config package).run (answer fetched board) origin).1

/-- The marks of a package after its task, if that is the only one. -/
def aloneMarks (package : Package) : List (String × ProposalState) :=
  (board.sight package.name ((task config package).run (answer fetched board) origin).2).marks

/-- The task of a package comes down to its entry when it is alone. -/
def Owes (package : Package) (task : Exchange Entry) (state : σ) : Prop :=
  Settles fetched board.address package.name task (board.sight package.name state)
    (alone config fetched board origin package) (aloneMarks config fetched board origin package)

/-- The branch is of none of the packages. -/
def isForeign (packages : List Package) (branch : String) : Bool :=
  packages.all fun package => !Proposal.isOf package.name branch

/-- Every package has a job that owes its entry, or has its entry; and nobody
else's proposals have changed. -/
structure Accounts (packages : List Package) (pool : Pool σ) : Prop where
  length : pool.slots.length = packages.length
  nodup : (pool.jobs.map Prod.fst).Nodup
  owed : ∀ place job, (place, job) ∈ pool.jobs → ∃ package,
    packages[place]? = some package ∧
      Owes config fetched board origin package job.task pool.state
  settled : ∀ place package, packages[place]? = some package →
    (∃ job, (place, job) ∈ pool.jobs) ∨
      (pool.slots[place]? = some (some (alone config fetched board origin package)) ∧
        (board.sight package.name pool.state).marks.Perm
          (aloneMarks config fetched board origin package))
  foreign : board.marksOf (isForeign packages) pool.state =
    board.marksOf (isForeign packages) origin

variable {config fetched board origin} {packages : List Package}

/-- The accounts are books in which every task owes what it comes down to
alone. -/
theorem accounts_iff_books {pool : Pool σ} :
    Accounts config fetched board origin packages pool ↔
      Books fetched board (fun package => Owns package.name)
          (fun package entry sight => entry = alone config fetched board origin package ∧
            sight.marks.Perm (aloneMarks config fetched board origin package)) packages pool ∧
        board.marksOf (isForeign packages) pool.state =
          board.marksOf (isForeign packages) origin := by
  constructor
  · intro haccounts
    refine ⟨⟨haccounts.length, haccounts.nodup, ?_, ?_⟩, haccounts.foreign⟩
    · intro place job hjob
      obtain ⟨package, hpackage, howes⟩ := haccounts.owed place job hjob
      exact ⟨package, hpackage, settles_iff_ends.1 howes⟩
    · intro place package hpackage
      exact (haccounts.settled place package hpackage).imp_right
        fun ⟨hslot, hmarks⟩ => ⟨_, hslot, rfl, hmarks⟩
  · rintro ⟨hbooks, hforeign⟩
    refine ⟨hbooks.length, hbooks.nodup, ?_, ?_, hforeign⟩
    · intro place job hjob
      obtain ⟨package, hpackage, hends⟩ := hbooks.owed place job hjob
      exact ⟨package, hpackage, settles_iff_ends.2 hends⟩
    · intro place package hpackage
      refine (hbooks.settled place package hpackage).imp_right ?_
      rintro ⟨_, hslot, rfl, hmarks⟩
      exact ⟨hslot, hmarks⟩

theorem owes_task (hboard : board.IsExact) (package : Package) :
    Owes config fetched board origin package (task config package) origin := by
  have hexists : ∃ entry marks, Settles fetched board.address package.name
      (task config package) (board.sight package.name origin) entry marks :=
    task_settles config package _
  obtain ⟨entry, marks, hsettles⟩ := hexists
  obtain ⟨hentry, hmarks⟩ := (settles_iff_ends.1 hsettles).run hboard
  rw [Owes, alone, hentry]
  exact hsettles.perm hmarks.symm

theorem start_accounts (hboard : board.IsExact) (packages : List Package) :
    Accounts config fetched board origin packages (start config packages origin) :=
  accounts_iff_books.2
    ⟨start_books fun package _ => settles_iff_ends.1 (owes_task hboard package), rfl⟩

/-- Questions of the packages change nobody else's marks. -/
theorem Accounts.reaches (hboard : board.IsExact)
    (hnames : ∀ package ∈ packages, Proposal.IsStubName package.name)
    (hdistinct : (packages.map Package.name).Nodup) {pool after : Pool σ}
    (haccounts : Accounts config fetched board origin packages pool)
    (hreaches : Reaches config (answer fetched board) pool after) :
    Accounts config fetched board origin packages after := by
  have hkeeps : ∀ package ∈ packages, ∀ question, Owns package.name question → ∀ state,
      board.marksOf (isForeign packages) state = board.marksOf (isForeign packages) origin →
        board.marksOf (isForeign packages) (answer fetched board question state).2 =
          board.marksOf (isForeign packages) origin := by
    intro package hmem question howns state hstate
    refine (answer_marksOf hboard howns ?_ state).trans hstate
    intro branch hbranch
    apply List.all_eq_false.2
    exact ⟨package, hmem, by simp [hbranch]⟩
  obtain ⟨hbooks, hforeign⟩ := accounts_iff_books.1 haccounts
  exact accounts_iff_books.2
    (hbooks.reaches hboard hnames hdistinct (fun _ _ howns => howns) hkeeps hforeign hreaches)

/-- Where no job is left, every entry is the one of the package alone. -/
theorem Accounts.collected_eq {pool : Pool σ}
    (haccounts : Accounts config fetched board origin packages pool) (hjobs : pool.jobs = []) :
    pool.collected packages = packages.map (alone config fetched board origin) := by
  have hcollected := (accounts_iff_books.1 haccounts).1.collected hjobs
  rw [← List.forall₂_eq_eq_eq, List.forall₂_map_right_iff]
  exact (hcollected.imp fun _ _ hended => hended.1).flip

/-- Where no job is left, the marks of every package are those it has alone. -/
theorem Accounts.marksOf_perm {pool : Pool σ}
    (haccounts : Accounts config fetched board origin packages pool) (hjobs : pool.jobs = [])
    {package : Package} (hmem : package ∈ packages) :
    (board.marksOf (Proposal.isOf package.name) pool.state).Perm
      (aloneMarks config fetched board origin package) := by
  obtain ⟨place, hpackage⟩ := List.mem_iff_getElem?.1 hmem
  rcases haccounts.settled place package hpackage with ⟨job, hjob⟩ | ⟨_, hmarks⟩
  · rw [hjobs] at hjob
    cases hjob
  · exact hmarks

/-- Where no job is left, the marks are those of every package alone. -/
theorem Accounts.marks_perm {pool other : Pool σ}
    (haccounts : Accounts config fetched board origin packages pool) (hjobs : pool.jobs = [])
    (hother : Accounts config fetched board origin packages other) (hjobs' : other.jobs = []) :
    (board.marks pool.state).Perm (board.marks other.state) := by
  apply Board.perm_of_marksOf packages fun package => Proposal.isOf package.name
  · intro package hmem
    exact (haccounts.marksOf_perm hjobs hmem).trans (hother.marksOf_perm hjobs' hmem).symm
  · exact haccounts.foreign.trans hother.foreign.symm

end Accounts

section Runs

variable {config : Config} {answer : (question : Question) → σ → Reply question × σ}
  {before after : List (Nat × Job)} {place : Nat} {slots : List (Option Entry)}

/-- A job that has begun may be carried out without a break. -/
theorem reaches_recorded (task : Exchange Entry) (state : σ) :
    Reaches config answer ⟨before ++ (place, .running task) :: after, slots, state⟩
      ⟨before ++ after, slots.set place (some (task.run answer state).1),
        (task.run answer state).2⟩ := by
  induction task generalizing state with
  | done entry => exact .tail (.single .finish) .record
  | ask question next ih => exact .head .ask (ih _ _)

theorem jobsFrom_cons (config : Config) (first : Nat) (package : Package)
    (packages : List Package) :
    jobsFrom config first (package :: packages) =
      if config.filter.processes package.name then
        (first, .waiting (process config package)) :: jobsFrom config (first + 1) packages
      else jobsFrom config (first + 1) packages := by
  simp only [jobsFrom, List.zipIdx_cons, List.filter_cons]
  split <;> rfl

theorem countP_jobsFrom (config : Config) (first : Nat) (packages : List Package) :
    ((jobsFrom config first packages).countP fun job => job.2.isRunning) = 0 := by
  rw [List.countP_eq_zero]
  rintro ⟨place, job⟩ hmem
  obtain ⟨package, _, _, rfl⟩ := mem_jobsFrom.1 hmem
  exact Bool.false_ne_true

/-- The tasks may be carried out one after the other. -/
theorem reaches_entries (packages : List Package) (known : List Entry) (state : σ) :
    Reaches config answer
      ⟨jobsFrom config known.length packages, known.map some ++ packages.map (slotOf config),
        state⟩
      ⟨[], (known ++ ((entries config packages).run answer state).1).map some,
        ((entries config packages).run answer state).2⟩ := by
  induction packages generalizing known state with
  | nil =>
      simp only [entries, Interaction.run_pure, List.append_nil, List.map_nil]
      exact .refl
  | cons package others ih =>
      let entry := ((task config package).run answer state).1
      let later := ((task config package).run answer state).2
      have hlater := ih (known ++ [entry]) later
      have hentries : (entries config (package :: others)).run answer state =
          (entry :: ((entries config others).run answer later).1,
            ((entries config others).run answer later).2) := by
        simp only [entries, Interaction.run_bind, Interaction.run_pure, entry, later]
      rw [hentries, List.append_cons]
      refine .trans ?_ hlater
      rw [jobsFrom_cons, List.length_append, List.length_singleton, List.map_cons, slotOf,
        List.map_append, List.append_assoc]
      by_cases hprocesses : config.filter.processes package.name = true
      · have htask : task config package = process config package := if_pos hprocesses
        have hroom : ((([] : List (Nat × Job)) ++
            jobsFrom config (known.length + 1) others).countP fun job => job.2.isRunning) <
              config.limit := by
          rw [List.nil_append, countP_jobsFrom]
          exact config.limit_pos
        have hset : (known.map some ++ none :: others.map (slotOf config)).set known.length
            (some entry) = known.map some ++ some entry :: others.map (slotOf config) := by
          simp
        rw [if_pos hprocesses, if_pos hprocesses]
        refine .head (.begin hroom) ?_
        rw [List.map_singleton, List.singleton_append, ← hset]
        simp only [entry, later, htask]
        exact reaches_recorded (process config package) state
      · have htask : task config package = pure (filtered package) := if_neg hprocesses
        rw [if_neg hprocesses, if_neg hprocesses]
        simp only [entry, later, htask, Interaction.run_pure]
        exact .refl

theorem start_reaches_entries (config : Config) (packages : List Package) (origin : σ) :
    Reaches config answer (start config packages origin)
      ⟨[], ((entries config packages).run answer origin).1.map some,
        ((entries config packages).run answer origin).2⟩ :=
  reaches_entries packages [] origin

/-- As long as there are jobs, one of them may go on. -/
theorem exists_step (config : Config) (answer : (question : Question) → σ → Reply question × σ)
    {pool : Pool σ} (hjobs : pool.jobs ≠ []) : ∃ after, Step config answer pool after := by
  obtain ⟨jobs, slots, state⟩ := pool
  by_cases hwaiting : ∀ job ∈ jobs, ∃ task, job.2 = .waiting task
  · obtain ⟨⟨place, job⟩, others, rfl⟩ := List.exists_cons_of_ne_nil hjobs
    obtain ⟨task, hjob⟩ := hwaiting _ List.mem_cons_self
    cases hjob
    have hnone : (others.countP fun job => job.2.isRunning) = 0 := by
      rw [List.countP_eq_zero]
      rintro ⟨other, job⟩ hmem
      obtain ⟨task, hjob⟩ := hwaiting _ (List.mem_cons_of_mem _ hmem)
      cases hjob
      exact Bool.false_ne_true
    have hroom : ((([] : List (Nat × Job)) ++ others).countP fun job => job.2.isRunning) <
        config.limit := by
      rw [List.nil_append, hnone]
      exact config.limit_pos
    exact ⟨_, .begin hroom⟩
  · simp only [Classical.not_forall] at hwaiting
    obtain ⟨⟨place, job⟩, hmem, hbegun⟩ := hwaiting
    obtain ⟨before, after, rfl⟩ := List.append_of_mem hmem
    cases job with
    | waiting task => exact absurd ⟨task, rfl⟩ hbegun
    | finished entry => exact ⟨_, .record⟩
    | running task =>
        cases task with
        | done entry => exact ⟨_, .finish⟩
        | ask question next => exact ⟨_, .ask⟩

end Runs

section Termination

/-- The one job is what the other has become by a step. -/
inductive Follows : Job → Job → Prop
  | begin {task : Exchange Entry} : Follows (.running task) (.waiting task)
  | ask {question : Question} {next : Reply question → Exchange Entry} (reply : Reply question) :
      Follows (.running (next reply)) (.running (.ask question next))
  | finish {entry : Entry} : Follows (.finished entry) (.running (.done entry))

theorem acc_finished (entry : Entry) : Acc Follows (.finished entry) := by
  constructor
  rintro job ⟨⟩

theorem acc_running (task : Exchange Entry) : Acc Follows (.running task) := by
  induction task with
  | done entry =>
      constructor
      rintro job ⟨⟩
      exact acc_finished entry
  | ask question next ih =>
      constructor
      rintro job ⟨⟩
      rename_i reply
      exact ih reply

theorem follows_wellFounded : WellFounded Follows := by
  constructor
  intro job
  cases job with
  | waiting task =>
      constructor
      rintro job ⟨⟩
      exact acc_running task
  | running task => exact acc_running task
  | finished entry => exact acc_finished entry

/-- The jobs of a pool, without their places. -/
def work (pool : Pool σ) : Multiset Job :=
  pool.jobs.map Prod.snd

theorem work_middle (before after : List (Nat × Job)) (place : Nat) (job : Job)
    (slots : List (Option Entry)) (state : σ) :
    work ⟨before ++ (place, job) :: after, slots, state⟩ =
      work ⟨before ++ after, slots, state⟩ + {job} := by
  rw [work, work, ← Multiset.coe_singleton, Multiset.coe_add, Multiset.coe_eq_coe]
  refine (List.perm_middle.map Prod.snd).trans ?_
  exact (List.perm_append_singleton _ _).symm

theorem cutExpand_remove (jobs : Multiset Job) (job : Job) :
    Relation.CutExpand Follows jobs (jobs + {job}) := by
  refine ⟨0, job, ?_, ?_⟩
  · intro other hother
    exact absurd hother (Multiset.notMem_zero other)
  · rw [add_zero]

/-- Every run of the jobs ends. -/
theorem step_wellFounded (config : Config)
    (answer : (question : Question) → σ → Reply question × σ) :
    WellFounded fun after pool : Pool σ => Step config answer pool after := by
  have hwork : ∀ {pool after : Pool σ}, Step config answer pool after →
      Relation.CutExpand Follows after.work pool.work := by
    intro pool after hstep
    cases hstep with
    | begin hroom =>
        rw [work_middle, work_middle]
        exact Relation.cutExpand_add_single _ .begin
    | ask =>
        rw [work_middle, work_middle]
        exact Relation.cutExpand_add_single _ (.ask _)
    | finish =>
        rw [work_middle, work_middle]
        exact Relation.cutExpand_add_single _ .finish
    | record =>
        rw [work_middle]
        exact cutExpand_remove _ _
  exact Subrelation.wf (fun hstep => hwork hstep)
    (InvImage.wf work follows_wellFounded.cutExpand)

/-- Wherever the jobs have come to, they may come to their end. -/
theorem exists_reaches_finished (config : Config)
    (answer : (question : Question) → σ → Reply question × σ) (pool : Pool σ) :
    ∃ last, Reaches config answer pool last ∧ last.jobs = [] := by
  induction pool using (step_wellFounded config answer).induction with
  | _ pool ih =>
      by_cases hjobs : pool.jobs = []
      · exact ⟨pool, .refl, hjobs⟩
      · obtain ⟨after, hstep⟩ := exists_step config answer hjobs
        obtain ⟨last, hreaches, hlast⟩ := ih after hstep
        exact ⟨last, .head hstep hreaches, hlast⟩

end Termination

section Agreement

variable {config : Config} {fetched : Releases} {board : Board σ} {packages : List Package}

/-- Where every place has an entry, the entries are collected as they are. -/
theorem collected_known {known : List Entry} (hlength : known.length = packages.length)
    (jobs : List (Nat × Job)) (state : σ) :
    collected packages ⟨jobs, known.map some, state⟩ = known := by
  rw [collected, List.zip_map_left, List.map_map]
  exact List.map_fst_zip hlength.le

theorem entries_accounts (hboard : board.IsExact)
    (hnames : ∀ package ∈ packages, Proposal.IsStubName package.name)
    (hdistinct : (packages.map Package.name).Nodup) (origin : σ) :
    Accounts config fetched board origin packages
      ⟨[], ((entries config packages).run (answer fetched board) origin).1.map some,
        ((entries config packages).run (answer fetched board) origin).2⟩ :=
  (start_accounts hboard packages).reaches hboard hnames hdistinct
    (start_reaches_entries config packages origin)

/-- In whatever order the jobs take their steps, they come to an end, and then
every package has the one entry that its task has alone, at its place; and the
board shows what it shows after the tasks have been carried out one by one. -/
theorem interleavings_agree (hboard : board.IsExact)
    (hnames : ∀ package ∈ packages, Proposal.IsStubName package.name)
    (hdistinct : (packages.map Package.name).Nodup) (origin : σ) :
    (WellFounded fun after pool : Pool σ => Step config (answer fetched board) pool after) ∧
      (∀ pool : Pool σ, pool.jobs ≠ [] →
        ∃ after, Step config (answer fetched board) pool after) ∧
      ∀ pool, Reaches config (answer fetched board) (start config packages origin) pool →
        pool.jobs = [] →
        pool.collected packages = packages.map (alone config fetched board origin) ∧
          (pool.collected packages).map Entry.package = packages.map Package.name ∧
          pool.collected packages =
            ((entries config packages).run (answer fetched board) origin).1 ∧
          (board.marks pool.state).Perm
            (board.marks ((entries config packages).run (answer fetched board) origin).2) := by
  refine ⟨step_wellFounded config _, fun pool => exists_step config _, ?_⟩
  intro pool hreaches hjobs
  have haccounts : Accounts config fetched board origin packages pool :=
    (start_accounts hboard packages).reaches hboard hnames hdistinct hreaches
  have hone : Accounts config fetched board origin packages _ :=
    entries_accounts hboard hnames hdistinct origin
  have hcollected := haccounts.collected_eq hjobs
  refine ⟨hcollected, ?_, ?_, haccounts.marks_perm hjobs hone rfl⟩
  · rw [hcollected, List.map_map]
    apply List.map_congr_left
    intro package _
    exact task_package _ config package origin
  · have hlength := hone.length
    rw [List.length_map] at hlength
    rw [hcollected, ← hone.collected_eq rfl, collected_known hlength]

end Agreement

namespace AgreementExample

def config : Config where
  exclude := ["far"]
  concurrency := 2

def declared : Constraint where
  raw := "1.1.*"
  version := ⟨0, [1, 1], none, none, none, none⟩
  wildcard := true

/-- A stub package whose distribution has the same name. -/
def stubs (name : String) : Package where
  name := name
  distribution := name
  minVersion := declared
  metadataSource := "version = \"1.1.*\"\n"

def packages : List Package :=
  [stubs "left", stubs "right", stubs "far"]

def fetched : Releases
  | "right" => .error (.rateLimited "PyPI")
  | _ => .ok [⟨⟨0, [1, 2], none, none, none, none⟩, "1.2", none, false, false, false⟩]

/-- The branch of the one update is taken. -/
def origin : { memory : Hosting.Memory // memory.IsCalm } :=
  ⟨{ taken := ["stubsabot/left/bump-1.2"] }, rfl, rfl⟩

/-- What the task of a package comes to in a state. -/
def ended (package : Package) (state : { memory : Hosting.Memory // memory.IsCalm }) :
    Entry × { memory : Hosting.Memory // memory.IsCalm } :=
  (process config package).run (answer fetched Hosting.Memory.board) state

/-- Both tasks have begun, and the second was carried out before the first. -/
def pool : Pool { memory : Hosting.Memory // memory.IsCalm } :=
  let right := ended (stubs "right") origin
  let left := ended (stubs "left") right.2
  ⟨[], ((packages.map (slotOf config)).set 1 (some right.1)).set 0 (some left.1), left.2⟩

theorem start_reaches :
    Reaches config (answer fetched Hosting.Memory.board) (start config packages origin)
      pool := by
  let left := process config (stubs "left")
  let right := process config (stubs "right")
  let slots := packages.map (slotOf config)
  have hjobs : jobsFrom config 0 packages = [(0, .waiting left), (1, .waiting right)] := rfl
  have hfirst : Step config (answer fetched Hosting.Memory.board)
      ⟨[] ++ (0, .waiting left) :: [(1, .waiting right)], slots, origin⟩
      ⟨[] ++ (0, .running left) :: [(1, .waiting right)], slots, origin⟩ := .begin (by decide)
  have hsecond : Step config (answer fetched Hosting.Memory.board)
      ⟨[(0, .running left)] ++ (1, .waiting right) :: [], slots, origin⟩
      ⟨[(0, .running left)] ++ (1, .running right) :: [], slots, origin⟩ := .begin (by decide)
  have hright : Reaches config (answer fetched Hosting.Memory.board)
      ⟨[(0, .running left)] ++ (1, .running right) :: [], slots, origin⟩
      ⟨[(0, .running left)] ++ [], slots.set 1 (some (ended (stubs "right") origin).1),
        (ended (stubs "right") origin).2⟩ := reaches_recorded right origin
  have hleft : Reaches config (answer fetched Hosting.Memory.board)
      ⟨[] ++ (0, .running left) :: [], slots.set 1 (some (ended (stubs "right") origin).1),
        (ended (stubs "right") origin).2⟩ pool := reaches_recorded left _
  rw [start, hjobs]
  exact .head hfirst (.head hsecond (hright.trans hleft))

/-- The taken branch sends the first proposal to its twin, the second package
is not fetched, and the third is left out. -/
theorem pool_agrees :
    Reaches config (answer fetched Hosting.Memory.board) (start config packages origin) pool ∧
      pool.collected packages =
        packages.map (alone config fetched Hosting.Memory.board origin) ∧
      (pool.collected packages).map Entry.outcome =
        [.proposed (.update ⟨0, [1, 1], none, none, none, none⟩
            ⟨0, [1, 2], none, none, none, none⟩) "stubsabot/left/bump-1.2-2"
            (some "https://example.com/pull/stubsabot/left/bump-1.2-2"),
          .failed "rate limit exceeded for PyPI registry", .skipped none .filtered] := by
  have hnames : ∀ package ∈ packages, Proposal.IsStubName package.name := by decide
  have hdistinct : (packages.map Package.name).Nodup := by decide
  obtain ⟨_, _, hagree⟩ := interleavings_agree
    Hosting.Memory.board_isExact hnames hdistinct origin
  exact ⟨start_reaches, (hagree pool start_reaches rfl).1, by decide +kernel⟩

end AgreementExample

end Pool

end Run

end StubSync
