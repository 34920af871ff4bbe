/-
A dry run only reads.

Its tasks ask for releases and for proposals and for nothing else, and both are
asked for by requests that read.  No issue is filed in a dry run, however it
ends.  So nothing that is sent changes anything, and nothing that is reported as
proposed has a link.
-/
import StubSync.Proofs.Run.Pool
import StubSync.Proofs.Session.Ending

namespace StubSync

open Interaction (OnlyAsks onlyAsks_query)

namespace GitHub

/-- The question asks for a listing at most. -/
def IsListing : Question → Prop
  | .attempt (.listPulls _ _ _) => True
  | .attempt _ => False
  | .pause _ => True

theorem overWeb_isReading {config : GitHub} {question : Question}
    (hquestion : IsListing question) : (config.overWeb question).OnlyAsks Http.IsReading := by
  match question with
  | .pause span => exact onlyAsks_query trivial
  | .attempt (.listPulls state head number) =>
      rw [overWeb_attempt]
      cases hrequest : config.requestOf? (.listPulls state head number) with
      | none => trivial
      | some request =>
          obtain ⟨_, _, rfl⟩ := Option.map_eq_some_iff.1 hrequest
          exact ⟨rfl, fun _ => trivial⟩

end GitHub

namespace Run

/-- The question changes nothing: it asks for releases or for proposals. -/
def Looks : Question → Prop
  | .host (.find _) | .fetch _ => True
  | .host _ => False

theorem looks_of_mayAsk {package : Package} {question : Question}
    (hquestion : MayAsk true package question) : Looks question := by
  match question with
  | .fetch distribution => trivial
  | .host (.find query) => trivial
  | .host (.publish proposal) => exact absurd hquestion.1 nofun
  | .host (.issue title body) => exact hquestion.elim

end Run

theorem GitHub.asHosting_isListing {config : GitHub} {policy : RetryPolicy}
    (question : Hosting.Question) (known : GitHub.Known) (hlooks : Run.Looks (.host question)) :
    (asHosting config policy question known).OnlyAsks IsListing := by
  cases question with
  | find query => exact findProposals_asks (fun _ => trivial) (fun _ _ _ => trivial) query known
  | publish proposal => exact hlooks.elim
  | issue title body => exact hlooks.elim

theorem Settings.dryRun_of_ofArguments {arguments : Arguments} {isDirectory : String → Bool}
    {settings : Settings} (hsettings : ofArguments arguments isDirectory = .ok settings) :
    settings.run.dryRun = arguments.dryRun := by
  unfold ofArguments at hsettings
  simp only [bind, Except.bind] at hsettings
  repeat' split at hsettings
  all_goals cases hsettings
  all_goals rfl

namespace Session

/-- Whatever is asked in a dry run is answered by reading. -/
theorem answer_isReading (settings : Settings) {question : Run.Question}
    (hlooks : Run.Looks question) (known : GitHub.Known) :
    (Session.answer settings question known).OnlyAsks Http.IsReading := by
  cases question with
  | fetch distribution =>
      rw [Session.answer]
      generalize ({ url := settings.indexUrl } : Index.Client) = client
      exact (Index.Client.fetch_asks (fun _ => trivial) (fun _ hread _ => hread) client
        distribution).bind fun _ => trivial
  | host question =>
      exact (GitHub.asHosting_isListing question known hlooks).interpret
        fun _ => GitHub.overWeb_isReading

section Dry

variable {settings : Settings} (hdry : settings.run.dryRun = true)

include hdry

theorem filesIssues_dryRun : filesIssues settings = false := by
  rw [filesIssues, hdry, Bool.not_true, Bool.and_false]

theorem file_dryRun (alert : Hosting.Exchange (Except HostingError String)) :
    file settings alert = return [] := by
  rw [file, filesIssues_dryRun hdry]
  rfl

theorem complete_isReading (packages : List Package) :
    (complete settings packages).OnlyAsks (AsksWeb Http.IsReading) := by
  have htasks : ∀ package question, Run.MayAsk settings.run.dryRun package question →
      Run.Looks question := by
    intro package question hquestion
    rw [hdry] at hquestion
    exact Run.looks_of_mayAsk hquestion
  exact complete_asks htasks
    (fun question known hlooks => answer_isReading settings hlooks known) packages

theorem conclude_dryRun (layout : Layout) (report : Report) :
    ∃ code, conclude layout settings report =
      return { exitCode := code, output := layout.showReport report } := by
  unfold conclude
  split
  · exact ⟨exitSuccess, rfl⟩
  · rw [file_dryRun hdry]
    exact ⟨exitFailed, rfl⟩

theorem runWith_isReading (layout : Layout) (files : Files) :
    (runWith layout files settings).OnlyAsks (AsksWeb Http.IsReading) := by
  unfold runWith
  dsimp only
  split
  · rw [abort]
    refine now_asks.bind fun today => ?_
    rw [file_dryRun hdry]
    trivial
  · refine (complete_isReading hdry _).bind fun report => ?_
    obtain ⟨code, hconclude⟩ := conclude_dryRun hdry layout report
    rw [hconclude]
    trivial

end Dry

end Session

namespace Run

/-- What is proposed has no link. -/
def IsUnlinked (entry : Entry) : Prop :=
  ∀ action branch url, entry.outcome = .proposed action branch url → url = none

theorem isUnlinked_of_tallies {package : Package} {entry : Entry}
    {opened : List (Proposal × Published)} (htallies : Tallies true package entry opened) :
    IsUnlinked entry := by
  intro action branch url hproposed
  cases htallies with
  | quiet hquiet =>
      rw [hproposed] at hquiet
      cases hquiet
  | drafted _ hdrafted =>
      rw [hproposed] at hdrafted
      cases hdrafted
      rfl
  | opened hlive => cases hlive

namespace Pool

variable {σ : Type} {config : Config} {packages : List Package} {origin : σ} {pool : Pool σ}
  {answer : (question : Question) → σ → Reply question × σ}
  (hdry : config.dryRun = true)
  (hreaches : Reaches config answer (start config packages origin) pool)

include hdry hreaches

/-- In whatever order the tasks of a dry run are carried out, what they ask
changes nothing. -/
theorem looks_of_reaches {place : Nat} {question : Question}
    {next : Reply question → Exchange Entry}
    (hjob : (place, Job.running (.ask question next)) ∈ pool.jobs) : Looks question := by
  obtain ⟨package, _, _, hasks, _⟩ := (reaches_keeps hreaches).owed place _ hjob
  rw [hdry] at hasks
  exact looks_of_mayAsk hasks

theorem unlinked_of_reaches (hjobs : pool.jobs = []) :
    ∀ entry ∈ pool.collected packages, IsUnlinked entry := by
  have hentries : List.Forall₂ (fun entry (_ : Package) => IsUnlinked entry ∧ True)
      (pool.collected packages) packages := by
    refine (((reaches_keeps hreaches).collected hjobs).imp ?_).flip
    rintro package entry ⟨_, _, htallies⟩
    rw [hdry] at htallies
    exact ⟨isUnlinked_of_tallies htallies, trivial⟩
  exact ((List.forall₂_and_left _ _).1 hentries).1

end Pool

end Run

namespace Session

section Dry

variable {σ : Type} (answer : (question : Question) → σ → Reply question × σ) (state : σ)

/-- The tasks of a run are answered over the web, one after the other. -/
theorem exists_complete_entries (settings : Settings) (packages : List Package) :
    ∃ origin : GitHub.Known × σ, ((complete settings packages).run answer state).1.entries =
      ((Run.entries settings.run packages).run
        (Interaction.answeringFrom (webAnswer answer) (Session.answer settings)) origin).1 := by
  refine ⟨(none, (now.run answer state).2), ?_⟩
  simp only [complete, web, Interaction.run_bind, Interaction.run_interpret,
    Interaction.run_interpretFrom, Interaction.run_pure, Run.report]
  rfl

/-- One task after the other is one of the orders of a run. -/
theorem entries_unlinked {τ : Type} {config : Run.Config} (hdry : config.dryRun = true)
    (packages : List Package)
    (surroundings : (question : Run.Question) → τ → Run.Reply question × τ) (origin : τ) :
    ∀ entry ∈ ((Run.entries config packages).run surroundings origin).1,
      Run.IsUnlinked entry := by
  have hreaches : Run.Pool.Reaches config surroundings _ _ :=
    Run.Pool.start_reaches_entries config packages origin
  have hlength := (Run.Pool.reaches_keeps hreaches).length
  rw [List.length_map] at hlength
  have hunlinked := Run.Pool.unlinked_of_reaches hdry hreaches rfl
  rw [Run.Pool.collected_known hlength] at hunlinked
  exact hunlinked

theorem complete_unlinked {settings : Settings} (hdry : settings.run.dryRun = true)
    (packages : List Package) :
    ∀ entry ∈ ((complete settings packages).run answer state).1.entries, Run.IsUnlinked entry := by
  obtain ⟨origin, hentries⟩ := exists_complete_entries answer state settings packages
  rw [hentries]
  exact entries_unlinked hdry packages _ origin

/-- The command line asks for a dry run, if it can be read. -/
def Start.IsDry (start : Start) : Prop :=
  ∀ arguments, CommandLine.read start.words start.environment = .ok arguments →
    arguments.dryRun = true

variable {start : Start} {arguments : Arguments} {settings : Settings}

theorem Start.IsDry.of_starts (hdry : start.IsDry)
    (hread : CommandLine.read start.words start.environment = .ok arguments)
    (hstarts : Starts start arguments settings) : settings.run.dryRun = true :=
  (Settings.dryRun_of_ofArguments hstarts.1).trans (hdry arguments hread)

theorem run_eq_runWith (hread : CommandLine.read start.words start.environment = .ok arguments)
    (hstarts : Starts start arguments settings) :
    run start = runWith (layoutOf start arguments) start.files settings := by
  simp only [run, hread, runArguments, hstarts.1, hstarts.2]

/-- A session that asks for a dry run sends nothing but requests that read. -/
theorem run_isReading (hdry : start.IsDry) :
    (run start).OnlyAsks (AsksWeb Http.IsReading) := by
  cases hread : CommandLine.read start.words start.environment with
  | error error =>
      simp only [run, hread]
      trivial
  | ok arguments =>
      by_cases hstarts : ∃ settings, Starts start arguments settings
      · obtain ⟨settings, hstarts⟩ := hstarts
        rw [run_eq_runWith hread hstarts]
        exact runWith_isReading (hdry.of_starts hread hstarts) _ _
      · simp only [run, hread, runArguments]
        split
        · trivial
        · split
          · trivial
          · exact absurd ⟨_, ‹_›, ‹_›⟩ hstarts

/-- What a dry run over packages shows is a report without links; and in
whatever order its tasks are carried out, each of their questions is answered by
reading. -/
structure Browses (settings : Settings) (packages : List Package) (report : Report) : Prop where
  unlinked : ∀ entry ∈ report.entries, Run.IsUnlinked entry
  asked : ∀ {τ : Type} (surroundings : (question : Run.Question) → τ → Run.Reply question × τ)
    (origin : τ) (pool : Run.Pool τ),
    Run.Pool.Reaches settings.run surroundings (Run.Pool.start settings.run packages origin) pool →
    ∀ place question next, (place, Run.Job.running (.ask question next)) ∈ pool.jobs →
      ∀ known, (Session.answer settings question known).OnlyAsks Http.IsReading
  collected : ∀ {τ : Type} (surroundings : (question : Run.Question) → τ → Run.Reply question × τ)
    (origin : τ) (pool : Run.Pool τ),
    Run.Pool.Reaches settings.run surroundings (Run.Pool.start settings.run packages origin) pool →
    pool.jobs = [] → ∀ entry ∈ pool.collected packages, Run.IsUnlinked entry

/-- However a dry run is answered, and however it ends, all its requests read;
and what it shows is a report without links. -/
theorem dryRun_reads (hdry : start.IsDry) :
    (∀ entry ∈ sends ((run start).trace answer state), entry.request.method = .get) ∧
      ∀ arguments settings packages,
        CommandLine.read start.words start.environment = .ok arguments →
        Starts start arguments settings → (checkoutOf start settings).packages = .ok packages →
        ∃ report, report = ((complete settings packages).run answer state).1 ∧
          ((run start).run answer state).1.output =
            (layoutOf start arguments).showReport report ∧
          Browses settings packages report := by
  constructor
  · intro entry hentry
    exact mem_sends_of_asks answer (run_isReading hdry) hentry
  · intro arguments settings packages hread hstarts hpackages
    have hsettings := hdry.of_starts hread hstarts
    refine ⟨_, rfl, ?_, ?_⟩
    · rw [run_eq_runWith hread hstarts, runWith_complete hpackages, Interaction.run_bind]
      obtain ⟨code, hconclude⟩ := conclude_dryRun hsettings (layoutOf start arguments)
        ((complete settings packages).run answer state).1
      rw [hconclude]
      rfl
    · constructor
      · exact complete_unlinked answer state hsettings packages
      · intro τ surroundings origin pool hreaches place question next hjob known
        exact answer_isReading settings (Run.Pool.looks_of_reaches hsettings hreaches hjob) known
      · intro τ surroundings origin pool hreaches hjobs
        exact Run.Pool.unlinked_of_reaches hsettings hreaches hjobs

end Dry

namespace ReadingExample

/-- A checkout with one stub package, and no server to be found. -/
def start : Start where
  words := ["--repo", "owner/stubs", "--token", "secret", "--dry-run", "--alert-on-failure",
    "checkout"]
  environment _ := none
  files :=
    let metadata := FileNode.file "version = \"1.0\"\n".toUTF8
    let stubs := FileNode.directory [("foo", .directory [("METADATA.toml", metadata)])]
    { top := .directory [("checkout", .directory [("stubs", stubs)])] }

def answer : (question : Question) → Unit → Reply question × Unit
  | .web question, state => Http.offline question state
  | .now, state => (⟨0, 0⟩, state)

theorem start_isDry : start.IsDry := by
  have hread : (CommandLine.read start.words start.environment).map Arguments.dryRun =
      .ok true := by
    decide +kernel
  intro arguments harguments
  rw [harguments] at hread
  exact Except.ok.inj hread

/-- The releases are asked for four times; the package fails, and still no issue
is filed. -/
theorem start_reads :
    start.IsDry ∧
      (∀ entry ∈ sends ((run start).trace answer ()), entry.request.method = .get) ∧
      (sends ((run start).trace answer ())).map (fun sent => sent.request.method) =
        [.get, .get, .get, .get] :=
  ⟨start_isDry, (dryRun_reads answer () start_isDry).1, by decide +kernel⟩

end ReadingExample

end Session

end StubSync
