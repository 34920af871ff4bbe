/-
A report is read again from its value.

Versions and times are written as they are shown, so these texts have to be
read as what they show.
-/
import StubSync.Proofs.Json.Record
import StubSync.Proofs.Time.RoundTrip
import StubSync.Proofs.Version.RoundTrip
import StubSync.Report.Encoding

namespace StubSync

open Json (ofFields Record)

section Names

variable {version : Version}

theorem Version.ofJson?_toJson (hwell : version.WellFormed) :
    Version.ofJson? version.toJson = some version := by
  rw [toJson, ofJson?, Json.text?, Option.bind_some, read?_toString hwell]

theorem Level.ofJson?_toJson (level : Level) : Level.ofJson? level.toJson = some level := by
  cases level <;> rfl

theorem Rest.ofJson?_toJson (reason : Rest) : Rest.ofJson? reason.toJson = some reason := by
  cases reason <;> rfl

end Names

namespace Action

/-- The versions that an action names. -/
def versions : Action → List Version
  | .update current target => [current, target]
  | .markObsolete since => [since]
  | .rest _ | .review _ => []

def caseName : Action → String
  | .rest _ => "no_action"
  | .update .. => "update"
  | .markObsolete _ => "mark_obsolete"
  | .review _ => "needs_review"

def caseFields : Action → List (String × Option Json)
  | .rest reason => [("reason", some reason.toJson)]
  | .update current target => [("current", some current.toJson), ("target", some target.toJson)]
  | .markObsolete since => [("since", some since.toJson)]
  | .review reason => [("reason", some (.text reason))]

variable {action : Action}

theorem toJson_eq (action : Action) :
    action.toJson = ofFields (("type", some (.text action.caseName)) :: action.caseFields) := by
  cases action <;> rfl

theorem not_mem_caseFields (action : Action) : "type" ∉ action.caseFields.map Prod.fst := by
  cases action <;> simp [caseFields]

theorem ofCase?_fields (hversions : ∀ version ∈ action.versions, version.WellFormed) :
    ofCase? (action.caseName, ofFields action.caseFields) = some action := by
  have hwell : ∀ version ∈ action.versions, Version.ofJson? version.toJson = some version :=
    fun version hversion => Version.ofJson?_toJson (hversions version hversion)
  have hnodup : (action.caseFields.map Prod.fst).Nodup := by
    cases action <;> simp [caseFields]
  cases action with
  | rest reason =>
      have hreason := Record.required_given hnodup "reason" reason.toJson (by simp [caseFields])
        Rest.ofJson?
      simp only [caseName, ofCase?, Record.ofJson?_ofFields hnodup, hreason, Rest.ofJson?_toJson,
        Option.bind_eq_bind, Option.bind_some]
      rfl
  | update current target =>
      have hcurrent := Record.required_given hnodup "current" current.toJson
        (by simp [caseFields]) Version.ofJson?
      have htarget := Record.required_given hnodup "target" target.toJson (by simp [caseFields])
        Version.ofJson?
      simp only [caseName, ofCase?, Record.ofJson?_ofFields hnodup, hcurrent, htarget,
        hwell current (by simp [versions]), hwell target (by simp [versions]),
        Option.bind_eq_bind, Option.bind_some]
      rfl
  | markObsolete since =>
      have hsince := Record.required_given hnodup "since" since.toJson (by simp [caseFields])
        Version.ofJson?
      simp only [caseName, ofCase?, Record.ofJson?_ofFields hnodup, hsince,
        hwell since (by simp [versions]), Option.bind_eq_bind, Option.bind_some]
      rfl
  | review reason =>
      have hreason := Record.required_given hnodup "reason" (.text reason) (by simp [caseFields])
        Json.text?
      simp only [caseName, ofCase?, Record.ofJson?_ofFields hnodup, hreason, Json.text?,
        Option.bind_eq_bind, Option.bind_some]
      rfl

theorem isNull_toJson (action : Action) : action.toJson.isNull = false := by
  cases action <;> rfl

/-- An action by itself names its case; within an outcome this is read alike. -/
theorem ofJson?_toJson (hversions : ∀ version ∈ action.versions, version.WellFormed) :
    Action.ofJson? action.toJson = some action ∧ ofInner? action.toJson = some action := by
  rw [ofJson?, ofInner?, toJson_eq, Json.tagged?_ofFields action.not_mem_caseFields,
    Json.tagged?_ofFields action.not_mem_caseFields]
  exact ⟨ofCase?_fields hversions, ofCase?_fields hversions⟩

end Action

theorem SkipReason.ofJson?_toJson (reason : SkipReason) :
    SkipReason.ofJson? reason.toJson = some reason := by
  cases reason with
  | rest reason => cases reason <;> rfl
  | proposalPending branch => rfl
  | _ => rfl

namespace Outcome

/-- The versions that an outcome names. -/
def versions : Outcome → List Version
  | .proposed action _ _ => action.versions
  | .skipped action _ => action.toList.flatMap Action.versions
  | .review _ | .failed _ => []

theorem ofJson?_toJson {outcome : Outcome}
    (hversions : ∀ version ∈ outcome.versions, version.WellFormed) :
    Outcome.ofJson? outcome.toJson = some outcome := by
  cases outcome with
  | proposed action branch url =>
      let fields := [("action", some action.toJson), ("branch", some (Json.text branch)),
        ("url", url.map Json.text)]
      have hnodup : (fields.map Prod.fst).Nodup := by simp [fields]
      have htag : "status" ∉ fields.map Prod.fst := by simp [fields]
      have haction := Record.required_given hnodup "action" action.toJson (by simp [fields])
        Action.ofInner?
      have hbranch := Record.required_given hnodup "branch" (.text branch) (by simp [fields])
        Json.text?
      have hurl : Record.optional ⟨Json.given fields, false⟩ "url" Json.text? = some url :=
        Record.optional_given hnodup "url" url .text (by simp [fields]) fun _ _ => ⟨rfl, rfl⟩
      obtain ⟨_, hinner⟩ := Action.ofJson?_toJson hversions
      have htagged : (proposed action branch url).toJson.tagged? "status" Json.text? =
          some ("proposed", ofFields fields) := Json.tagged?_ofFields htag
      simp only [ofJson?, htagged, Record.ofJson?_ofFields hnodup, haction, hbranch, hurl, hinner,
        Json.text?, Option.bind_eq_bind, Option.bind_some]
      rfl
  | skipped action reason =>
      let fields := [("action", action.map Action.toJson), ("reason", some reason.toJson)]
      have hnodup : (fields.map Prod.fst).Nodup := by simp [fields]
      have htag : "status" ∉ fields.map Prod.fst := by simp [fields]
      have haction : Record.optional ⟨Json.given fields, false⟩ "action" Action.ofInner? =
          some action := by
        refine Record.optional_given hnodup "action" action Action.toJson (by simp [fields]) ?_
        rintro given rfl
        have hgiven : ∀ version ∈ given.versions, version.WellFormed := by
          simpa [versions] using hversions
        obtain ⟨_, hinner⟩ := Action.ofJson?_toJson hgiven
        exact ⟨given.isNull_toJson, hinner⟩
      have hreason := Record.required_given hnodup "reason" reason.toJson (by simp [fields])
        SkipReason.ofJson?
      have htagged : (skipped action reason).toJson.tagged? "status" Json.text? =
          some ("skipped", ofFields fields) := Json.tagged?_ofFields htag
      simp only [ofJson?, htagged, Record.ofJson?_ofFields hnodup, haction, hreason,
        SkipReason.ofJson?_toJson, Option.bind_eq_bind, Option.bind_some]
      rfl
  | review reason => rfl
  | failed error => rfl

end Outcome

namespace Entry

/-- The versions that an entry names; the declared one is kept as a text. -/
def versions (entry : Entry) : List Version :=
  entry.latest.toList ++ entry.outcome.versions

def fields (entry : Entry) : List (String × Option Json) :=
  [("package", some (.text entry.package)), ("upstream", some (.text entry.distribution)),
    ("current", some (.text entry.current)), ("latest", entry.latest.map Version.toJson),
    ("outcome", some entry.outcome.toJson), ("diff", entry.diff.map .text)]

variable {entry : Entry}

theorem nodup_fields (entry : Entry) : (entry.fields.map Prod.fst).Nodup := by
  simp [fields]

theorem ofJson?_toJson (hversions : ∀ version ∈ entry.versions, version.WellFormed) :
    Entry.ofJson? entry.toJson = some entry := by
  have hnodup := entry.nodup_fields
  have hlatest : Record.optional ⟨Json.given entry.fields, false⟩ "latest" Version.ofJson? =
      some entry.latest := by
    refine Record.optional_given hnodup "latest" entry.latest Version.toJson (by simp [fields]) ?_
    intro latest hlatest
    have hmem : latest ∈ entry.versions := by simp [versions, Option.mem_def.1 hlatest]
    exact ⟨rfl, Version.ofJson?_toJson (hversions latest hmem)⟩
  have hdiff : Record.optional ⟨Json.given entry.fields, false⟩ "diff" Json.text? =
      some entry.diff :=
    Record.optional_given hnodup "diff" entry.diff .text (by simp [fields])
      fun _ _ => ⟨rfl, rfl⟩
  have houtcome : Outcome.ofJson? entry.outcome.toJson = some entry.outcome :=
    Outcome.ofJson?_toJson fun version hversion =>
      hversions version (List.mem_append_right _ hversion)
  have hpackage := Record.required_given hnodup "package" (.text entry.package)
    (by simp [fields]) Json.text?
  have hdistribution := Record.required_given hnodup "upstream" (.text entry.distribution)
    (by simp [fields]) Json.text?
  have hcurrent := Record.required_given hnodup "current" (.text entry.current)
    (by simp [fields]) Json.text?
  have hfound := Record.required_given hnodup "outcome" entry.outcome.toJson (by simp [fields])
    Outcome.ofJson?
  have hentry : entry.toJson = ofFields entry.fields := rfl
  simp only [ofJson?, hentry, Record.ofJson?_ofFields hnodup, hlatest, hdiff, hfound, houtcome,
    hpackage, hdistribution, hcurrent, Json.text?, Option.bind_eq_bind, Option.bind_some]
  rfl

end Entry

namespace Report

/-- The versions that a report names. -/
def versions (report : Report) : List Version :=
  report.entries.flatMap Entry.versions

def times (report : Report) : List Instant :=
  report.startedAt :: report.finishedAt.toList

/-- The texts that a report shows its versions and its times with can be read:
its versions are such as texts spell, and its times are read back. -/
structure IsLegible (report : Report) : Prop where
  versions : ∀ version ∈ report.versions, ∃ text, Version.parse text = .ok version
  times : ∀ time ∈ report.times, Instant.read? (toString time) = some time

/-- The times of the calendar are all legible. -/
theorem IsLegible.of_proper {report : Report}
    (hversions : ∀ version ∈ report.versions, version.WellFormed)
    (htimes : ∀ time ∈ report.times, time.IsProper) : report.IsLegible where
  versions version hversion := Version.wellFormed_iff.1 (hversions version hversion)
  times time htime := Instant.read?_toString (htimes time htime)

section Fields

variable {report : Report} {fields : List (String × Option Json)}

/-- Any object with the fields of a report is read as the report; what else it
has is passed over. -/
theorem ofJson?_ofFields (hlegible : report.IsLegible) (hnodup : (fields.map Prod.fst).Nodup)
    (hlevel : ("action_level", some report.level.toJson) ∈ fields)
    (hdryRun : ("dry_run", some (.flag report.dryRun)) ∈ fields)
    (hstarted : ("started_at", some report.startedAt.toJson) ∈ fields)
    (hfinished : ("finished_at", report.finishedAt.map Instant.toJson) ∈ fields)
    (hentries : ("packages", some (.list (report.entries.map Entry.toJson))) ∈ fields) :
    Report.ofJson? (ofFields fields) = some report := by
  have htimes : ∀ time ∈ report.times, Instant.ofJson? time.toJson = some time := by
    intro time htime
    rw [Instant.toJson, Instant.ofJson?, Json.text?, Option.bind_some, hlegible.times time htime]
  have hreadEntries : Json.listOf? Entry.ofJson? (.list (report.entries.map Entry.toJson)) =
      some report.entries := by
    refine Json.listOf?_map fun entry hentry => Entry.ofJson?_toJson fun version hversion => ?_
    exact Version.wellFormed_iff.2
      (hlegible.versions version (List.mem_flatMap_of_mem hentry hversion))
  have hoptional : Record.optional ⟨Json.given fields, false⟩ "finished_at" Instant.ofJson? =
      some report.finishedAt := by
    refine Record.optional_given hnodup "finished_at" report.finishedAt Instant.toJson hfinished ?_
    intro time htime
    exact ⟨rfl, htimes time (by simp [times, Option.mem_def.1 htime])⟩
  have hstart := htimes report.startedAt List.mem_cons_self
  simp only [ofJson?, Record.ofJson?_ofFields hnodup, hoptional,
    Record.required_given hnodup _ _ hlevel, Record.required_given hnodup _ _ hdryRun,
    Record.required_given hnodup _ _ hstarted, Record.required_given hnodup _ _ hentries,
    Level.ofJson?_toJson, Json.flag?, hstart, hreadEntries, Option.bind_eq_bind,
    Option.bind_some]
  rfl

end Fields

end Report

end StubSync
