/-
How a session ends.

The exit code is decided by the settings, by the checkout and by the report of
the run.  An issue is filed at the very end or not at all, and nothing that is
done before could be taken for it.
-/
import StubSync.Proofs.Checkout
import StubSync.Proofs.Hosting.Issues
import StubSync.Proofs.Index.Fetch
import StubSync.Proofs.Run.Attempts
import StubSync.Proofs.Settings
import StubSync.Session

namespace StubSync

open Interaction (Asked OnlyAsks onlyAsks_query)

open GitHub (Alerts NoAlert SparesIssues IsAboutProposals)

namespace Checkout

/-- The stub packages cannot be listed, or one of them cannot be loaded. -/
def IsBroken (checkout : Checkout) : Prop :=
  (∃ error, checkout.names = .error error) ∨
    ∃ names, checkout.names = .ok names ∧
      ∃ name ∈ names, ∃ error, checkout.load name = .error error

theorem isBroken_iff (checkout : Checkout) :
    checkout.IsBroken ↔ ∃ error, checkout.packages = .error error := by
  unfold IsBroken packages
  cases checkout.names with
  | error error => exact ⟨fun _ => ⟨error, rfl⟩, fun _ => Or.inl ⟨error, rfl⟩⟩
  | ok names =>
      refine Iff.trans ?_ exists_mapM_eq_error_iff.symm
      constructor
      · rintro (⟨_, hnames⟩ | ⟨_, hnames, hbroken⟩)
        · cases hnames
        · cases hnames
          exact hbroken
      · exact fun hbroken => Or.inr ⟨names, rfl, hbroken⟩

end Checkout

namespace Run

/-- A task asks for releases, and about proposals. -/
def IsTaskQuestion : Question → Prop
  | .fetch _ => True
  | .host question => IsAboutProposals question

theorem isTaskQuestion_of_mayAsk {dryRun : Bool} {package : Package} {question : Question}
    (hquestion : MayAsk dryRun package question) : IsTaskQuestion question := by
  match question with
  | .fetch distribution => trivial
  | .host (.find query) => trivial
  | .host (.publish proposal) => trivial
  | .host (.issue title body) => exact hquestion.elim

end Run

namespace Index

theorem fetch_noAlert (client : Client) (package : String) (config : GitHub) :
    (client.fetch package).OnlyAsks (NoAlert config) := by
  refine Client.fetch_asks (fun _ => trivial) ?_ client package
  intro request hread hnone
  exact ⟨fun title text => by simp [hnone], fun _ _ hpost => by simp [hread] at hpost⟩

end Index

namespace Session

section Requests

variable {α σ : Type}

def sent? : (question : Question) → Reply question → Option Http.Sent
  | .web question, reply => Http.sent? question reply
  | .now, _ => none

/-- The requests of a session, in their order. -/
def sends (asked : List (Asked Reply σ)) : List Http.Sent :=
  Interaction.seen sent? asked

theorem sends_append (first second : List (Asked Reply σ)) :
    sends (first ++ second) = sends first ++ sends second :=
  Interaction.seen_append sent? first second

variable (answer : (question : Question) → σ → Reply question × σ)

/-- What the surroundings of a session answer over the web. -/
def webAnswer (question : Http.Question) (state : σ) : Http.Reply question × σ :=
  answer (.web question) state

theorem sends_web (exchange : Http.Exchange α) (state : σ) :
    sends ((web exchange).trace answer state) =
      Http.sends (exchange.trace (webAnswer answer) state) := by
  induction exchange generalizing state with
  | done result => rfl
  | ask question next ih =>
      change Interaction.seen sent? (_ :: ((web (next _)).trace answer _)) = _
      rw [Interaction.trace, Http.sends, Interaction.seen_cons, Interaction.seen_cons]
      exact congrArg _ (ih _ _)

/-- The question is one over the web of a kind, or for the time. -/
def AsksWeb (may : Http.Question → Prop) : Question → Prop
  | .web question => may question
  | .now => True

theorem now_asks {may : Http.Question → Prop} : now.OnlyAsks (AsksWeb may) :=
  onlyAsks_query trivial

theorem web_asks {may : Http.Question → Prop} {exchange : Http.Exchange α}
    (hexchange : exchange.OnlyAsks may) : (web exchange).OnlyAsks (AsksWeb may) :=
  hexchange.interpret fun _ hquestion => onlyAsks_query hquestion

/-- What is asked of a kind is sent of that kind. -/
theorem mem_sends_of_asks {may : Http.Question → Prop} {exchange : Exchange α}
    (hexchange : exchange.OnlyAsks (AsksWeb may)) {state : σ} {entry : Http.Sent}
    (hentry : entry ∈ sends (exchange.trace answer state)) : may (.send entry.request) := by
  obtain ⟨⟨question, before, reply⟩, hasked, hsent⟩ := List.mem_filterMap.1 hentry
  have hquestion := hexchange.mem_trace hasked
  cases question with
  | now => cases hsent
  | web question =>
      cases question with
      | pause span => cases hsent
      | send request =>
          cases hsent
          exact hquestion

/-- What a run asks over the web is what its tasks are answered by. -/
theorem complete_asks {settings : Settings} {may : Run.Question → Prop}
    {mayWeb : Http.Question → Prop}
    (htasks : ∀ package question, Run.MayAsk settings.run.dryRun package question → may question)
    (hanswer : ∀ question known, may question →
      (Session.answer settings question known).OnlyAsks mayWeb)
    (packages : List Package) : (complete settings packages).OnlyAsks (AsksWeb mayWeb) := by
  have hentries := (Run.entries_asks htasks packages).interpretFrom hanswer none
  refine now_asks.bind fun startedAt => (web_asks hentries).bind fun ended => ?_
  exact now_asks.bind fun finishedAt => trivial

/-- No request of a run has to do with issues. -/
theorem complete_noAlert (settings : Settings) (packages : List Package) (state : σ) :
    ∀ entry ∈ sends ((complete settings packages).trace answer state),
      SparesIssues settings.hosting entry.request := by
  have hanswer (question : Run.Question) (known : GitHub.Known)
      (hquestion : Run.IsTaskQuestion question) :
      (Session.answer settings question known).OnlyAsks (NoAlert settings.hosting) := by
    cases question with
    | fetch distribution =>
        rw [Session.answer]
        generalize ({ url := settings.indexUrl } : Index.Client) = client
        exact (Index.fetch_noAlert client distribution settings.hosting).bind fun _ => trivial
    | host question =>
        exact (GitHub.asHosting_noIssue question known hquestion).interpret
          fun question hquestion => GitHub.overWeb_noAlert question hquestion
  intro entry hentry
  exact mem_sends_of_asks answer
    (complete_asks (fun _ _ => Run.isTaskQuestion_of_mayAsk) hanswer packages) hentry

/-- Filing an issue takes one request, if the service has an address. -/
theorem sends_issue (config : GitHub) (title body : String)
    (answer : (question : Http.Question) → σ → Http.Reply question × σ) (state : σ) :
    (Http.sends ((host config {} (Hosting.issue title body) none).trace answer state)).map
        Http.Sent.request =
      (config.requestOf? (.createIssue title body)).toList := by
  let issue := (Hosting.issue title body).interpretFrom (GitHub.asHosting config {}) none
  have hissue : GitHub.Converses (fun _ _ => True) issue
      (fun _ steps => ∃ reply, steps = [⟨.createIssue title body, reply⟩]) [] := by
    refine ⟨trivial, fun reply => ?_⟩
    cases reply with
    | error error => exact ⟨.error error, rfl⟩
    | ok value => exact ⟨.ok value, rfl⟩
  change (Http.sends ((issue.interpret config.overWeb).trace answer state)).map _ = _
  cases hrequest : config.requestOf? (.createIssue title body) with
  | none =>
      have hnone (call : GitHub.Call) := (config.requestOf?_eq_none_iff _ call).1 hrequest
      rw [GitHub.sends_interpret_eq_nil answer hnone]
      rfl
  | some request =>
      have hreads (call : GitHub.Call) : config.requestOf? call ≠ none := fun hnone => by
        rw [(config.requestOf?_eq_none_iff call _).1 hnone] at hrequest
        cases hrequest
      have hsends := GitHub.sends_interpret answer hreads issue state
      obtain ⟨reply, hseen⟩ := hissue.run
        (Interaction.answering config.overWeb answer) state
      rw [List.nil_append] at hseen
      rw [hseen, List.forall₂_cons_left_iff] at hsends
      obtain ⟨sent, others, ⟨hsent, _⟩, hothers, hsends⟩ := hsends
      rw [List.forall₂_nil_left_iff] at hothers
      rw [hsends, hothers, ← hrequest, hsent]
      rfl

theorem sends_file (settings : Settings) (title body : String) (state : σ) :
    (sends ((file settings (Hosting.issue title body)).trace answer state)).map
        Http.Sent.request =
      if filesIssues settings then
        (settings.hosting.requestOf? (.createIssue title body)).toList
      else [] := by
  unfold file
  split
  · rw [Interaction.trace_bind, sends_append, sends_web, List.map_append, sends_issue]
    generalize (web _).run answer state = reply
    obtain ⟨⟨url | error, _⟩, _⟩ := reply
    · exact List.append_nil _
    · exact List.append_nil _
  · rfl

end Requests

section Ends

/-- The settings are valid, and the service can be spoken to. -/
def Starts (start : Start) (arguments : Arguments) (settings : Settings) : Prop :=
  Settings.ofArguments arguments start.files.isDirectory = .ok settings ∧
    settings.hosting.checkToken = .ok ()

def checkoutOf (start : Start) (settings : Settings) : Checkout :=
  ⟨start.files, settings.root, settings.baseCommit⟩

/-- A package of the report has failed. -/
def HasFailure (report : Report) : Prop :=
  ∃ entry ∈ report.entries, ∃ message, entry.outcome = .failed message

theorem hasFailure_iff (report : Report) : HasFailure report ↔ report.isSuccess = false := by
  have hfailed (outcome : Outcome) :
      outcome.isFailed = true ↔ ∃ message, outcome = .failed message := by
    cases outcome with
    | failed message => exact ⟨fun _ => ⟨message, rfl⟩, fun _ => rfl⟩
    | _ => exact ⟨nofun, nofun⟩
  rw [Report.isSuccess, Report.failedCount, Report.count, beq_eq_false_iff_ne,
    ← Nat.pos_iff_ne_zero, List.countP_pos_iff]
  simp only [hfailed]
  rfl

theorem Starts.unique {start : Start} {arguments : Arguments} {settings other : Settings}
    (hstarts : Starts start arguments settings) (hother : Starts start arguments other) :
    other = settings :=
  Except.ok.inj (hother.1.symm.trans hstarts.1)

theorem Starts.exists_iff {start : Start} {arguments : Arguments} {settings : Settings}
    (hstarts : Starts start arguments settings) (p : Settings → Prop) :
    (∃ other, Starts start arguments other ∧ p other) ↔ p settings := by
  constructor
  · rintro ⟨other, hother, hp⟩
    exact hstarts.unique hother ▸ hp
  · exact fun hp => ⟨settings, hstarts, hp⟩

/-- The run was broken off, or a package failed in it. -/
def WentWrong (start : Start) (completed : Settings → List Package → Report)
    (settings : Settings) : Prop :=
  (checkoutOf start settings).IsBroken ∨
    ∃ packages, (checkoutOf start settings).packages = .ok packages ∧
      HasFailure (completed settings packages)

/-- Issues were asked for, the run is no dry run, and something went wrong. -/
def AlertIsDue (start : Start) (arguments : Arguments)
    (completed : Settings → List Package → Report) (settings : Settings) : Prop :=
  arguments.alertOnFailure = true ∧ arguments.dryRun = false ∧
    WentWrong start completed settings

/-- How a session with these arguments ends, and what it sends: `completed` is
the report of a run over packages. -/
structure Ends (start : Start) (arguments : Arguments)
    (completed : Settings → List Package → Report) (finish : Finish) (sent : List Http.Sent) :
    Prop where
  code : finish.exitCode ∈ [0, 1, 2]
  fatal_iff : finish.exitCode = 2 ↔ (∀ settings, ¬ Starts start arguments settings) ∨
    ∃ settings, Starts start arguments settings ∧ (checkoutOf start settings).IsBroken
  failed_iff : finish.exitCode = 1 ↔ ∃ settings, Starts start arguments settings ∧
    ∃ packages, (checkoutOf start settings).packages = .ok packages ∧
      HasFailure (completed settings packages)
  /-- Nothing is sent before the settings are known to be valid. -/
  silent : (∀ settings, ¬ Starts start arguments settings) → sent = []
  /-- Alerts come last, and a run that is broken off sends nothing else. -/
  alerted : ∀ settings, Starts start arguments settings → ∃ others alerts,
    sent = others ++ alerts ∧
    (∀ entry ∈ others, SparesIssues settings.hosting entry.request) ∧
    ((checkoutOf start settings).IsBroken → others = []) ∧
    (AlertIsDue start arguments completed settings → Alerts settings.hosting alerts) ∧
    (¬ AlertIsDue start arguments completed settings → alerts = [])

variable {σ : Type} {start : Start} {arguments : Arguments} {settings : Settings}
  {completed : Settings → List Package → Report}

theorem Starts.alertIsDue_iff (hstarts : Starts start arguments settings) :
    AlertIsDue start arguments completed settings ↔
      filesIssues settings = true ∧ WentWrong start completed settings := by
  obtain ⟨_, rfl⟩ := Settings.ofArguments_eq_ok_iff.1 hstarts.1
  simp [AlertIsDue, filesIssues, Settings.granted, and_assoc]

theorem ends_unstarted (hnone : ∀ settings, ¬ Starts start arguments settings)
    (message : String) : Ends start arguments completed (fatal message) [] where
  code := by simp [fatal, exitFatal]
  fatal_iff := ⟨fun _ => Or.inl hnone, fun _ => rfl⟩
  failed_iff := ⟨nofun, fun ⟨settings, hstarts, _⟩ => absurd hstarts (hnone settings)⟩
  silent _ := rfl
  alerted settings hstarts := absurd hstarts (hnone settings)

section Completed

variable {packages : List Package}
  (hpackages : (checkoutOf start settings).packages = .ok packages)

include hpackages

theorem not_isBroken : ¬ (checkoutOf start settings).IsBroken := by
  rw [Checkout.isBroken_iff, hpackages]
  exact nofun

/-- The report of the packages tells whether one has failed. -/
theorem exists_hasFailure_iff :
    (∃ packages, (checkoutOf start settings).packages = .ok packages ∧
      HasFailure (completed settings packages)) ↔
      (completed settings packages).isSuccess = false := by
  rw [hpackages, ← hasFailure_iff]
  constructor
  · rintro ⟨_, hsame, hfailure⟩
    cases hsame
    exact hfailure
  · exact fun hfailure => ⟨packages, rfl, hfailure⟩

theorem wentWrong_iff :
    WentWrong start completed settings ↔ (completed settings packages).isSuccess = false := by
  rw [WentWrong, exists_hasFailure_iff hpackages, or_iff_right (not_isBroken hpackages)]

end Completed

/-- What was sent for an issue, if one is filed. -/
theorem alerts_of_file {sent : List Http.Sent} {title body : String} {wrong : Prop}
    (hwrong : wrong)
    (hsent : sent.map Http.Sent.request =
      if filesIssues settings then
        (settings.hosting.requestOf? (.createIssue title body)).toList
      else []) :
    (filesIssues settings = true ∧ wrong → Alerts settings.hosting sent) ∧
    (¬ (filesIssues settings = true ∧ wrong) → sent = []) := by
  constructor
  · rintro ⟨hfiles, _⟩
    rw [if_pos hfiles] at hsent
    exact GitHub.alerts_of_requestOf? hsent
  · intro hnot
    rw [if_neg fun hfiles => hnot ⟨hfiles, hwrong⟩, List.map_eq_nil_iff] at hsent
    exact hsent

theorem ends_broken (hstarts : Starts start arguments settings)
    (hbroken : (checkoutOf start settings).IsBroken) {message title body : String}
    {sent : List Http.Sent}
    (hsent : sent.map Http.Sent.request =
      if filesIssues settings then
        (settings.hosting.requestOf? (.createIssue title body)).toList
      else []) :
    Ends start arguments completed (fatal message) sent where
  code := by simp [fatal, exitFatal]
  fatal_iff := ⟨fun _ => Or.inr ⟨settings, hstarts, hbroken⟩, fun _ => rfl⟩
  failed_iff := by
    obtain ⟨error, herror⟩ := (Checkout.isBroken_iff _).1 hbroken
    rw [hstarts.exists_iff, herror]
    exact ⟨nofun, nofun⟩
  silent hnone := absurd hstarts (hnone settings)
  alerted other hother := by
    cases hstarts.unique hother
    rw [hstarts.alertIsDue_iff]
    exact ⟨[], sent, rfl, List.forall_mem_nil _, fun _ => rfl,
      alerts_of_file (Or.inl hbroken) hsent⟩

theorem ends_completed (hstarts : Starts start arguments settings) {packages : List Package}
    (hpackages : (checkoutOf start settings).packages = .ok packages) {finish : Finish}
    {others alerts : List Http.Sent} (title body : String)
    (hothers : ∀ entry ∈ others, SparesIssues settings.hosting entry.request)
    (hfinish : finish.exitCode =
      if (completed settings packages).isSuccess then exitSuccess else exitFailed)
    (hsent : alerts.map Http.Sent.request =
      if (completed settings packages).isSuccess then []
      else if filesIssues settings then
        (settings.hosting.requestOf? (.createIssue title body)).toList
      else []) :
    Ends start arguments completed finish (others ++ alerts) := by
  have hwhole := not_isBroken hpackages
  have hwrong : WentWrong start completed settings ↔ _ := wentWrong_iff hpackages
  have hfatal : ¬ ((∀ settings, ¬ Starts start arguments settings) ∨
      ∃ settings, Starts start arguments settings ∧ (checkoutOf start settings).IsBroken) := by
    rw [hstarts.exists_iff]
    exact not_or.2 ⟨fun hnone => hnone settings hstarts, hwhole⟩
  have halerts : (filesIssues settings = true ∧ WentWrong start completed settings →
      Alerts settings.hosting alerts) ∧
      (¬ (filesIssues settings = true ∧ WentWrong start completed settings) → alerts = []) := by
    cases hsuccess : (completed settings packages).isSuccess with
    | true =>
        rw [hsuccess, if_pos rfl, List.map_eq_nil_iff] at hsent
        rw [hwrong, hsuccess]
        exact ⟨nofun, fun _ => hsent⟩
    | false =>
        rw [hsuccess, if_neg Bool.false_ne_true] at hsent
        exact alerts_of_file (hwrong.2 hsuccess) hsent
  constructor
  · rw [hfinish]
    cases (completed settings packages).isSuccess <;> decide
  · refine iff_of_false ?_ hfatal
    rw [hfinish]
    cases (completed settings packages).isSuccess <;> decide
  · rw [hstarts.exists_iff, exists_hasFailure_iff hpackages, hfinish]
    cases (completed settings packages).isSuccess <;> decide
  · exact fun hnone => absurd hstarts (hnone settings)
  · intro other hother
    cases hstarts.unique hother
    rw [hstarts.alertIsDue_iff]
    exact ⟨others, alerts, rfl, hothers, fun hbroken => absurd hbroken hwhole, halerts⟩

theorem runWith_broken {error : MetadataError}
    (hpackages : (checkoutOf start settings).packages = .error error) (layout : Layout) :
    runWith layout start.files settings = abort settings error := by
  rw [checkoutOf] at hpackages
  simp only [runWith, hpackages]

theorem runWith_complete {packages : List Package}
    (hpackages : (checkoutOf start settings).packages = .ok packages) (layout : Layout) :
    runWith layout start.files settings =
      complete settings packages >>= conclude layout settings := by
  rw [checkoutOf] at hpackages
  simp only [runWith, hpackages]

section Runs

variable (answer : (question : Question) → σ → Reply question × σ) (state : σ)

theorem abort_ends (hstarts : Starts start arguments settings) (error : MetadataError)
    (hbroken : (checkoutOf start settings).IsBroken) :
    Ends start arguments completed ((abort settings error).run answer state).1
      (sends ((abort settings error).trace answer state)) := by
  have hrun : ((abort settings error).run answer state).1 =
      fatal ("loading stub metadata: " ++ withCauses error) := by
    simp only [abort, Interaction.run_bind, Interaction.run_pure]
  rw [hrun]
  refine ends_broken hstarts hbroken (Eq.trans ?_ (sends_file answer settings
    (Alert.title (now.run answer state).1.day) (Alert.abortBody error.message settings.runUrl)
    (now.run answer state).2))
  simp only [abort, Interaction.trace_bind, sends_append]
  exact congrArg _ (List.append_nil _)

theorem conclude_ends (hstarts : Starts start arguments settings) {packages : List Package}
    (hpackages : (checkoutOf start settings).packages = .ok packages) (layout : Layout)
    (hcompleted : completed settings packages = ((complete settings packages).run answer state).1) :
    Ends start arguments completed
      ((complete settings packages >>= conclude layout settings).run answer state).1
      (sends ((complete settings packages >>= conclude layout settings).trace answer state)) := by
  rw [Interaction.run_bind, Interaction.trace_bind, sends_append, ← hcompleted]
  generalize ((complete settings packages).run answer state).2 = later
  have hothers := complete_noAlert answer settings packages state
  let report := completed settings packages
  refine ends_completed hstarts hpackages (Alert.title report.startedAt.day)
    (Alert.failureBody report settings.runUrl) hothers ?_ ?_
  · rw [conclude]
    split
    · rfl
    · simp only [Interaction.run_bind, Interaction.run_pure]
  · rw [conclude]
    split
    · rfl
    · rw [Interaction.trace_bind, sends_append, List.map_append]
      exact (List.append_nil _).trans (sends_file answer settings _ _ later)

end Runs

/-- However the web answers a session, its exit code is decided by its settings,
its checkout and the report of its run, and at its very end it files one issue
or none. -/
theorem run_ends (hread : CommandLine.read start.words start.environment = .ok arguments)
    (answer : (question : Question) → σ → Reply question × σ) (state : σ) :
    Ends start arguments
      (fun settings packages => ((complete settings packages).run answer state).1)
      ((run start).run answer state).1 (sends ((run start).trace answer state)) := by
  have hrun : run start = runArguments start arguments := by
    rw [run, hread]
  rw [hrun, runArguments]
  cases hsettings : Settings.ofArguments arguments start.files.isDirectory with
  | error error =>
      refine ends_unstarted (fun settings hstarts => ?_) error.message
      rw [Starts, hsettings] at hstarts
      cases hstarts.1
  | ok settings =>
      cases htoken : settings.hosting.checkToken with
      | error error =>
          simp only [htoken]
          refine ends_unstarted (fun other hstarts => ?_) error.message
          cases hsettings.symm.trans hstarts.1
          rw [Starts, htoken] at hstarts
          cases hstarts.2
      | ok valid =>
          have hstarts : Starts start arguments settings := ⟨hsettings, htoken⟩
          simp only [htoken]
          cases hpackages : (checkoutOf start settings).packages with
          | error error =>
              rw [runWith_broken hpackages]
              exact abort_ends answer state hstarts error
                ((Checkout.isBroken_iff _).2 ⟨error, hpackages⟩)
          | ok packages =>
              rw [runWith_complete hpackages]
              exact conclude_ends answer state hstarts hpackages _ rfl

end Ends

namespace EndingExample

/-- A command line for a directory without stub packages. -/
def start : Start where
  words := ["--repo", "owner/stubs", "--token", "secret", "--alert-on-failure", "checkout"]
  environment _ := none
  files := { top := .directory [("checkout", .directory [])] }

def arguments : Arguments where
  root := "checkout"
  repo := some "owner/stubs"
  token := some "secret"
  alertOnFailure := true

/-- No server is found, and no time passes. -/
def answer : (question : Question) → Unit → Reply question × Unit
  | .web question, state => Http.offline question state
  | .now, state => (⟨0, 0⟩, state)

theorem read_words : CommandLine.read start.words start.environment = .ok arguments := by
  decide +kernel

/-- The session is broken off, and its issue is posted once, although that fails. -/
theorem start_ends :
    CommandLine.read start.words start.environment = .ok arguments ∧
      ((run start).run answer ()).1.exitCode = 2 ∧
      ((sends ((run start).trace answer ())).map fun sent =>
        (sent.request.method.name, sent.request.address.target)) =
          [("POST", "/repos/owner/stubs/issues")] ∧
      Ends start arguments
        (fun settings packages => ((complete settings packages).run answer ()).1)
        ((run start).run answer ()).1 (sends ((run start).trace answer ())) :=
  ⟨read_words, by decide +kernel, by decide +kernel, run_ends read_words answer ()⟩

end EndingExample

end Session

end StubSync
