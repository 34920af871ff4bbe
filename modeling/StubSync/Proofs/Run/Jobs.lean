/-
Tasks that are carried out at the same time.

Every package that is not left out is a job, and only so many jobs run at once.
The jobs take their steps in any order.  A ledger says what each of them owes:
where a question of one job leaves what the others owe as it is, every package
has settled with its own entry when no job is left.
-/
import Mathlib.Data.List.Forall2
import Mathlib.Logic.Relation
import StubSync.Run

namespace StubSync

namespace Run

/-- A task that waits for its turn, one that has begun, or the entry that one
has ended with. -/
inductive Job where
  | waiting (task : Exchange Entry)
  | running (task : Exchange Entry)
  | finished (entry : Entry)

/-- What is left of the task. -/
def Job.task : Job → Exchange Entry
  | .waiting task | .running task => task
  | .finished entry => .done entry

def Job.isRunning : Job → Bool
  | .running _ => true
  | _ => false

/-- The number of jobs that may run at once. -/
def Config.limit (config : Config) : Nat :=
  max config.concurrency 1

theorem Config.limit_pos (config : Config) : 0 < config.limit :=
  Nat.lt_of_lt_of_le Nat.zero_lt_one (Nat.le_max_right _ _)

/-- The jobs that are not over, each with the place of its package; the entries
that are known, by place; and the state of the board. -/
structure Pool (σ : Type) where
  jobs : List (Nat × Job)
  slots : List (Option Entry)
  state : σ

namespace Pool

variable {σ : Type}

/-- The entry of a package that the run was told to leave out. -/
def filtered (package : Package) : Entry :=
  entryOf package none (.skipped none .filtered)

/-- Jobs from a place on. -/
def jobsFrom (config : Config) (place : Nat) (packages : List Package) : List (Nat × Job) :=
  ((packages.zipIdx place).filter fun (package, _) => config.filter.processes package.name).map
    fun (package, place) => (place, .waiting (process config package))

def slotOf (config : Config) (package : Package) : Option Entry :=
  if config.filter.processes package.name then none else some (filtered package)

def start (config : Config) (packages : List Package) (state : σ) : Pool σ where
  jobs := jobsFrom config 0 packages
  slots := packages.map (slotOf config)
  state := state

/-- What one job may do next. -/
inductive Step (config : Config) (answer : (question : Question) → σ → Reply question × σ) :
    Pool σ → Pool σ → Prop
  | begin {before after : List (Nat × Job)} {place : Nat} {task : Exchange Entry}
      {slots : List (Option Entry)} {state : σ}
      (hroom : ((before ++ after).countP fun job => job.2.isRunning) < config.limit) :
      Step config answer ⟨before ++ (place, .waiting task) :: after, slots, state⟩
        ⟨before ++ (place, .running task) :: after, slots, state⟩
  | ask {before after : List (Nat × Job)} {place : Nat} {question : Question}
      {next : Reply question → Exchange Entry} {slots : List (Option Entry)} {state : σ} :
      Step config answer ⟨before ++ (place, .running (.ask question next)) :: after, slots, state⟩
        ⟨before ++ (place, .running (next (answer question state).1)) :: after, slots,
          (answer question state).2⟩
  | finish {before after : List (Nat × Job)} {place : Nat} {entry : Entry}
      {slots : List (Option Entry)} {state : σ} :
      Step config answer ⟨before ++ (place, .running (.done entry)) :: after, slots, state⟩
        ⟨before ++ (place, .finished entry) :: after, slots, state⟩
  | record {before after : List (Nat × Job)} {place : Nat} {entry : Entry}
      {slots : List (Option Entry)} {state : σ} :
      Step config answer ⟨before ++ (place, .finished entry) :: after, slots, state⟩
        ⟨before ++ after, slots.set place (some entry), state⟩

/-- The jobs may come from one pool to the other. -/
def Reaches (config : Config) (answer : (question : Question) → σ → Reply question × σ) :
    Pool σ → Pool σ → Prop :=
  Relation.ReflTransGen (Step config answer)

/-- The entries of the packages; a place that was left empty has failed. -/
def collected (packages : List Package) (pool : Pool σ) : List Entry :=
  (pool.slots.zip packages).map fun (slot, package) =>
    slot.getD (entryOf package none (.failed "package task aborted"))

section Places

variable {config : Config} {packages : List Package}

theorem mem_jobsFrom {place first : Nat} {job : Job} :
    (place, job) ∈ jobsFrom config first packages ↔ ∃ package,
      (package, place) ∈ packages.zipIdx first ∧ config.filter.processes package.name = true ∧
        job = .waiting (process config package) := by
  simp only [jobsFrom, List.mem_map, List.mem_filter, Prod.exists, Prod.mk.injEq]
  constructor
  · rintro ⟨package, _, ⟨hmem, hprocesses⟩, rfl, rfl⟩
    exact ⟨package, hmem, hprocesses, rfl⟩
  · rintro ⟨package, hmem, hprocesses, rfl⟩
    exact ⟨package, place, ⟨hmem, hprocesses⟩, rfl, rfl⟩

theorem nodup_jobsFrom (config : Config) (first : Nat) (packages : List Package) :
    ((jobsFrom config first packages).map Prod.fst).Nodup := by
  have hplaces : (jobsFrom config first packages).map Prod.fst =
      ((packages.zipIdx first).filter fun (package, _) =>
        config.filter.processes package.name).map Prod.snd := by
    rw [jobsFrom, List.map_map]
    rfl
  rw [hplaces]
  refine List.Nodup.sublist (List.filter_sublist.map Prod.snd) ?_
  rw [List.zipIdx_map_snd]
  exact List.nodup_range'

theorem name_ne (hdistinct : (packages.map Package.name).Nodup) {left right : Nat}
    {package other : Package} (hleft : packages[left]? = some package)
    (hright : packages[right]? = some other) (hne : left ≠ right) :
    package.name ≠ other.name := by
  intro hname
  refine hne ((List.getElem?_inj ?_ hdistinct).1 ?_)
  · rw [List.length_map]
    exact (List.getElem?_eq_some_iff.1 hleft).1
  · rw [List.getElem?_map, List.getElem?_map, hleft, hright, Option.map_some, Option.map_some,
      hname]

variable {before after : List (Nat × Job)} {place : Nat} {job : Job}

theorem mem_middle {entry : Nat × Job} :
    entry ∈ before ++ (place, job) :: after ↔ entry = (place, job) ∨ entry ∈ before ++ after :=
  List.perm_middle.mem_iff.trans List.mem_cons

/-- No other job is at the place of a job. -/
theorem place_ne {entry : Nat × Job}
    (hnodup : ((before ++ (place, job) :: after).map Prod.fst).Nodup)
    (hentry : entry ∈ before ++ after) : entry.1 ≠ place := by
  have hnodup := (List.perm_middle.map Prod.fst).nodup_iff.1 hnodup
  rw [List.map_cons, List.nodup_cons] at hnodup
  have hplaces : entry.1 ∈ (before ++ after).map Prod.fst := List.mem_map_of_mem hentry
  exact fun hplace => hnodup.1 (hplace ▸ hplaces)

end Places

section Ledger

/-- Every package has a job whose task owes what it has to, or an entry that one
has ended with. -/
structure Ledger (owes : Package → Exchange Entry → σ → Prop) (packages : List Package)
    (pool : Pool σ) : Prop where
  length : pool.slots.length = packages.length
  nodup : (pool.jobs.map Prod.fst).Nodup
  owed : ∀ place job, (place, job) ∈ pool.jobs → ∃ package,
    packages[place]? = some package ∧ owes package job.task pool.state
  settled : ∀ place package, packages[place]? = some package →
    (∃ job, (place, job) ∈ pool.jobs) ∨
      ∃ entry, pool.slots[place]? = some (some entry) ∧ owes package (.done entry) pool.state

variable {config : Config} {owes : Package → Exchange Entry → σ → Prop} {packages : List Package}

/-- At the start, every task owes its own end. -/
theorem start_ledger {origin : σ}
    (howes : ∀ package ∈ packages, owes package (task config package) origin) :
    Ledger owes packages (start config packages origin) where
  length := List.length_map _
  nodup := nodup_jobsFrom config 0 packages
  owed := by
    intro place job hjob
    obtain ⟨package, hmem, hprocesses, rfl⟩ := mem_jobsFrom.1 hjob
    have hpackage := List.mem_zipIdx_iff_getElem?.1 hmem
    have howed := howes package (List.mem_of_getElem? hpackage)
    rw [task, if_pos hprocesses] at howed
    exact ⟨package, hpackage, howed⟩
  settled := by
    intro place package hpackage
    by_cases hprocesses : config.filter.processes package.name = true
    · exact Or.inl ⟨_, mem_jobsFrom.2
        ⟨package, List.mem_zipIdx_iff_getElem?.2 hpackage, hprocesses, rfl⟩⟩
    · have hended := howes package (List.mem_of_getElem? hpackage)
      rw [task, if_neg hprocesses] at hended
      refine Or.inr ⟨filtered package, ?_, hended⟩
      simp [start, hpackage, slotOf, hprocesses]

variable {before after : List (Nat × Job)} {place : Nat} {job next : Job}
  {slots : List (Option Entry)} {state later : σ}

/-- One job goes on, and what the others owe stays. -/
theorem Ledger.replace
    (hledger : Ledger owes packages ⟨before ++ (place, job) :: after, slots, state⟩)
    (hnext : ∀ package, packages[place]? = some package → owes package job.task state →
      owes package next.task later)
    (hothers : ∀ other package task, other ≠ place → packages[other]? = some package →
      owes package task state → owes package task later) :
    Ledger owes packages ⟨before ++ (place, next) :: after, slots, later⟩ where
  length := hledger.length
  nodup := by
    have hnodup := hledger.nodup
    simpa only [List.map_append, List.map_cons] using hnodup
  owed := by
    intro other waiting hmem
    rcases mem_middle.1 hmem with hsame | hmem
    · cases hsame
      obtain ⟨package, hpackage, howed⟩ := hledger.owed place job (mem_middle.2 (Or.inl rfl))
      exact ⟨package, hpackage, hnext package hpackage howed⟩
    · obtain ⟨package, hpackage, howed⟩ :=
        hledger.owed other waiting (mem_middle.2 (Or.inr hmem))
      exact ⟨package, hpackage,
        hothers other package _ (place_ne hledger.nodup hmem) hpackage howed⟩
  settled := by
    intro other package hpackage
    by_cases hother : other = place
    · exact Or.inl ⟨next, mem_middle.2 (Or.inl (hother ▸ rfl))⟩
    · rcases hledger.settled other package hpackage with ⟨waiting, hmem⟩ | ⟨entry, hslot, hentry⟩
      · rcases mem_middle.1 hmem with hsame | hmem
        · exact absurd (congrArg Prod.fst hsame) hother
        · exact Or.inl ⟨waiting, mem_middle.2 (Or.inr hmem)⟩
      · exact Or.inr ⟨entry, hslot, hothers other package _ hother hpackage hentry⟩

/-- An entry is put in its place. -/
theorem Ledger.record {entry : Entry}
    (hledger : Ledger owes packages ⟨before ++ (place, .finished entry) :: after, slots, state⟩) :
    Ledger owes packages ⟨before ++ after, slots.set place (some entry), state⟩ where
  length := by
    rw [List.length_set]
    exact hledger.length
  nodup := by
    have hnodup := (List.perm_middle.map Prod.fst).nodup_iff.1 hledger.nodup
    rw [List.map_cons, List.nodup_cons] at hnodup
    exact hnodup.2
  owed := by
    intro other waiting hmem
    exact hledger.owed other waiting (mem_middle.2 (Or.inr hmem))
  settled := by
    intro other package hpackage
    by_cases hother : other = place
    · subst hother
      obtain ⟨found, hfound, hended⟩ :=
        hledger.owed other (.finished entry) (mem_middle.2 (Or.inl rfl))
      rw [hpackage] at hfound
      cases hfound
      have hbound : other < slots.length := by
        rw [hledger.length]
        exact (List.getElem?_eq_some_iff.1 hpackage).1
      exact Or.inr ⟨entry, List.getElem?_set_self hbound, hended⟩
    · rcases hledger.settled other package hpackage with ⟨waiting, hmem⟩ | ⟨known, hslot, hknown⟩
      · rcases mem_middle.1 hmem with hsame | hmem
        · exact absurd (congrArg Prod.fst hsame) hother
        · exact Or.inl ⟨waiting, hmem⟩
      · refine Or.inr ⟨known, ?_, hknown⟩
        rw [List.getElem?_set_ne (Ne.symm hother)]
        exact hslot

/-- What is owed stays owed: by the task that asks a question it is owed after
the answer, and by the tasks at other places as before. -/
structure IsKept (answer : (question : Question) → σ → Reply question × σ)
    (owes : Package → Exchange Entry → σ → Prop) (packages : List Package) : Prop where
  own : ∀ package ∈ packages, ∀ question next state, owes package (.ask question next) state →
    owes package (next (answer question state).1) (answer question state).2
  others : ∀ {place other : Nat} {package found : Package}, packages[place]? = some package →
    packages[other]? = some found → other ≠ place →
    ∀ question next state task, owes package (.ask question next) state →
      owes found task state → owes found task (answer question state).2

variable {answer : (question : Question) → σ → Reply question × σ}
  (hkept : IsKept answer owes packages)

include hkept

/-- The step lemma: what is owed stays owed, and the state is changed only by
questions of tasks that owe something. -/
theorem Ledger.step {pool after : Pool σ} (hledger : Ledger owes packages pool)
    (hstep : Step config answer pool after) :
    Ledger owes packages after ∧
      (after.state = pool.state ∨ ∃ package ∈ packages, ∃ question next,
        owes package (.ask question next) pool.state ∧
          after.state = (answer question pool.state).2) := by
  cases hstep with
  | begin hroom =>
      exact ⟨hledger.replace (fun _ _ howed => howed) fun _ _ _ _ _ howed => howed, Or.inl rfl⟩
  | @ask before after place question next slots state =>
      obtain ⟨package, hpackage, howed⟩ := hledger.owed place _ (mem_middle.2 (Or.inl rfl))
      have hmem : package ∈ packages := List.mem_of_getElem? hpackage
      refine ⟨hledger.replace ?_ ?_, Or.inr ⟨package, hmem, question, next, howed, rfl⟩⟩
      · intro found hfound howed
        exact hkept.own found (List.mem_of_getElem? hfound) question next state howed
      · intro other found task hother hfound htask
        exact hkept.others hpackage hfound hother question next state task howed htask
  | finish =>
      exact ⟨hledger.replace (fun _ _ howed => howed) fun _ _ _ _ _ howed => howed, Or.inl rfl⟩
  | record => exact ⟨hledger.record, Or.inl rfl⟩

/-- The run lemma, together with what the questions do not change. -/
theorem Ledger.reaches (keeps : σ → Prop)
    (hkeeps : ∀ package ∈ packages, ∀ question next state,
      owes package (.ask question next) state → keeps state → keeps (answer question state).2)
    {pool after : Pool σ} (hledger : Ledger owes packages pool) (hstate : keeps pool.state)
    (hreaches : Reaches config answer pool after) :
    Ledger owes packages after ∧ keeps after.state := by
  induction hreaches with
  | refl => exact ⟨hledger, hstate⟩
  | tail _ hstep ih =>
      obtain ⟨hledger, hstate⟩ := ih
      obtain ⟨hledger, hsame | ⟨package, hmem, question, next, howed, hanswer⟩⟩ :=
        hledger.step hkept hstep
      · exact ⟨hledger, hsame ▸ hstate⟩
      · refine ⟨hledger, ?_⟩
        rw [hanswer]
        exact hkeeps package hmem question next _ howed hstate

omit hkept

/-- Where no job is left, every package has an entry that has settled what was
owed. -/
theorem Ledger.collected {pool : Pool σ} (hledger : Ledger owes packages pool)
    (hjobs : pool.jobs = []) :
    List.Forall₂ (fun package entry => owes package (.done entry) pool.state)
      packages (pool.collected packages) := by
  rw [List.forall₂_iff_get]
  refine ⟨?_, fun place hplace hcollected => ?_⟩
  · rw [Pool.collected, List.length_map, List.length_zip, hledger.length, Nat.min_self]
  · have hpackage : packages[place]? = some (packages.get ⟨place, hplace⟩) :=
      List.getElem?_eq_getElem hplace
    rcases hledger.settled place _ hpackage with ⟨job, hmem⟩ | ⟨entry, hslot, hentry⟩
    · rw [hjobs] at hmem
      cases hmem
    · have hzip : (pool.slots.zip packages)[place]? =
          some (some entry, packages.get ⟨place, hplace⟩) :=
        List.getElem?_zip_eq_some.2 ⟨hslot, hpackage⟩
      have hfound : (pool.collected packages)[place]? = some entry := by
        rw [Pool.collected, List.getElem?_map, hzip]
        rfl
      rw [List.getElem?_eq_getElem hcollected] at hfound
      have hcollect : (pool.collected packages).get ⟨place, hcollected⟩ = entry :=
        Option.some.inj hfound
      rw [hcollect]
      exact hentry

end Ledger

end Pool

end Run

end StubSync
