/-
The document of a report loses nothing: the report is read from it again.  What
a shorter document leaves out can be told from the full one.
-/
import StubSync.Proofs.Json.Document
import StubSync.Proofs.Report.Encoding
import StubSync.Report.Document

namespace StubSync

open Json (IsWhole ofFields)

namespace Json

section Whole

@[simp]
theorem isWhole_text (content : String) : IsWhole (.text content) :=
  .text content

@[simp]
theorem isWhole_flag (truth : Bool) : IsWhole (.flag truth) :=
  .flag truth

@[simp]
theorem isWhole_natural (n : Nat) : IsWhole (natural n) := by
  refine .number ?_
  rw [String.toList_ofList, scientific?_digits]
  rfl

theorem isWhole_ofFields {fields : List (String × Option Json)}
    (hfields : ∀ field ∈ fields, ∀ value ∈ field.2, IsWhole value) :
    IsWhole (ofFields fields) := by
  refine .object ?_
  rintro ⟨name, value⟩ hfield
  exact hfields (name, some value) (mem_given_iff.1 hfield) value rfl

end Whole

section Parts

/-- The same object with another value of a key. -/
def mapField (key : String) (change : Json → Json) : Json → Json
  | .object entries =>
      .object (entries.map fun entry =>
        if entry.1 = key then (entry.1, change entry.2) else entry)
  | value => value

/-- The same object without a key. -/
def dropField (key : String) : Json → Json
  | .object entries => .object (entries.filter fun entry => entry.1 != key)
  | value => value

def mapItems (change : List Json → List Json) : Json → Json
  | .list items => .list (change items)
  | value => value

theorem mapField_ofFields (key : String) (change : Json → Json)
    (fields : List (String × Option Json)) :
    (ofFields fields).mapField key change = ofFields (fields.map fun field =>
      if field.1 = key then (field.1, field.2.map change) else field) := by
  change Json.object ((given fields).map _) = Json.object (given _)
  refine congrArg Json.object ?_
  induction fields with
  | nil => rfl
  | cons field others ih =>
      obtain ⟨name, value⟩ := field
      by_cases hname : name = key <;> cases value <;> simp_all [given]

theorem dropField_ofFields (key : String) (fields : List (String × Option Json)) :
    (ofFields fields).dropField key = ofFields (fields.filter fun field => field.1 != key) := by
  change Json.object ((given fields).filter _) = Json.object (given _)
  refine congrArg Json.object ?_
  induction fields with
  | nil => rfl
  | cons field others ih =>
      obtain ⟨name, value⟩ := field
      by_cases hname : name = key <;> cases value <;> simp_all [given]

end Parts

end Json

section Whole

@[simp]
theorem Version.isWhole_toJson (version : Version) : IsWhole version.toJson :=
  .text _

@[simp]
theorem Instant.isWhole_toJson (instant : Instant) : IsWhole instant.toJson :=
  .text _

@[simp]
theorem Rest.isWhole_toJson (reason : Rest) : IsWhole reason.toJson :=
  .text _

@[simp]
theorem Action.isWhole_toJson (action : Action) : IsWhole action.toJson := by
  cases action <;> exact .object (by simp)

@[simp]
theorem SkipReason.isWhole_toJson (reason : SkipReason) : IsWhole reason.toJson := by
  cases reason with
  | rest reason => exact .object (by simp)
  | proposalPending branch =>
      refine .object (List.forall_mem_singleton.2 ?_)
      exact .object (by simp)
  | _ => exact .text _

@[simp]
theorem Outcome.isWhole_toJson (outcome : Outcome) : IsWhole outcome.toJson := by
  cases outcome with
  | proposed action branch url => exact Json.isWhole_ofFields (by simp)
  | skipped action reason => exact Json.isWhole_ofFields (by simp)
  | review reason => exact .object (by simp)
  | failed error => exact .object (by simp)

@[simp]
theorem Entry.isWhole_toJson (entry : Entry) : IsWhole entry.toJson :=
  Json.isWhole_ofFields (by simp)

namespace Report

theorem isWhole_summaryJson (report : Report) : IsWhole report.summaryJson :=
  .object (by simp)

theorem isWhole_documentJson (verbosity : Verbosity) (report : Report) :
    IsWhole (report.documentJson verbosity) := by
  have hentries : IsWhole (.list
      ((report.entries.filter (isShown verbosity)).map (entryJson verbosity))) := by
    refine .list ?_
    rw [List.forall_mem_map]
    exact fun entry _ => Entry.isWhole_toJson _
  have hlevel : IsWhole report.level.toJson := .text _
  exact Json.isWhole_ofFields (by simp [hentries, hlevel, report.isWhole_summaryJson])

/-- A document can be read at every verbosity. -/
theorem read?_showDocument (verbosity : Verbosity) (report : Report) :
    Json.read? (showDocument (report.documentJson verbosity)) =
      some (report.documentJson verbosity) :=
  Json.read?_pretty (isWhole_documentJson verbosity report) (List.all_eq_true.1 rfl)

end Report

end Whole

namespace Report

/-- The report of a document. -/
def readDocument? (text : String) : Option Report :=
  (Json.read? text).bind Report.ofJson?

/-- A package that the run was told to leave out. -/
def isFilteredPackage (package : Json) : Bool :=
  (package.at? ["outcome", "status"]).bind Json.text? == some "skipped" &&
    (package.at? ["outcome", "reason"]).bind Json.text? == some "filtered"

/-- The document without the packages that were left out, and without diffs. -/
def brief (document : Json) : Json :=
  document.mapField "packages" <| Json.mapItems fun packages =>
    (packages.filter fun package => !isFilteredPackage package).map (Json.dropField "diff")

/-- The report without the packages that were left out, and without diffs. -/
def shortened (report : Report) : Report :=
  { report with
    entries := (report.entries.filter fun entry => !entry.outcome.isFiltered).map fun entry =>
      { entry with diff := none } }

section Packages

theorem at?_outcome (entry : Entry) (path : List String) :
    entry.toJson.at? ("outcome" :: path) = entry.outcome.toJson.at? path := by
  have houtcome : entry.toJson.get? "outcome" = some entry.outcome.toJson :=
    Json.get?_ofFields entry.nodup_fields (by simp [Entry.fields])
  rw [Json.at?, houtcome, Option.bind_some]

/-- Packages that were left out are recognised in a document. -/
theorem isFilteredPackage_toJson (entry : Entry) :
    isFilteredPackage entry.toJson = entry.outcome.isFiltered := by
  rw [isFilteredPackage, at?_outcome, at?_outcome]
  cases entry.outcome with
  | proposed action branch url => cases url <;> rfl
  | skipped action reason => cases action <;> cases reason <;> rfl
  | review reason => rfl
  | failed error => rfl

theorem dropField_toJson (entry : Entry) :
    entry.toJson.dropField "diff" = { entry with diff := none : Entry }.toJson := by
  have hentry : entry.toJson = ofFields entry.fields := rfl
  rw [hentry, Json.dropField_ofFields]
  rfl

end Packages

section Parts

variable {report : Report} {verbosity : Verbosity}

theorem packages_verbose (report : Report) :
    (report.entries.filter (isShown .verbose)).map (entryJson .verbose) =
      report.entries.map Entry.toJson := by
  have hall : report.entries.filter (isShown .verbose) = report.entries :=
    List.filter_eq_self.2 fun _ _ => rfl
  rw [hall]
  rfl

theorem packages_of_ne_verbose (hbrief : verbosity ≠ .verbose) (report : Report) :
    (report.entries.filter (isShown verbosity)).map (entryJson verbosity) =
      report.shortened.entries.map Entry.toJson := by
  have hshown : isShown verbosity = fun entry => !entry.outcome.isFiltered := by
    funext entry
    cases verbosity <;> first | rfl | exact absurd rfl hbrief
  have hentry : entryJson verbosity = fun entry => { entry with diff := none : Entry }.toJson := by
    funext entry
    exact congrArg Entry.toJson (if_neg hbrief)
  rw [shortened, List.map_map, hshown, hentry]
  rfl

def documentFields (verbosity : Verbosity) (report : Report) : List (String × Option Json) :=
  [("action_level", some report.level.toJson), ("dry_run", some (.flag report.dryRun)),
    ("success", some (.flag report.isSuccess)), ("started_at", some report.startedAt.toJson),
    ("finished_at", report.finishedAt.map Instant.toJson), ("summary", some report.summaryJson),
    ("packages", some (.list
      ((report.entries.filter (isShown verbosity)).map (entryJson verbosity))))]

theorem nodup_documentFields (verbosity : Verbosity) (report : Report) :
    ((report.documentFields verbosity).map Prod.fst).Nodup := by
  simp [documentFields]

theorem documentJson_eq (verbosity : Verbosity) (report : Report) :
    report.documentJson verbosity = ofFields (report.documentFields verbosity) :=
  rfl

theorem get?_documentJson {name : String} {value : Option Json}
    (hfield : (name, value) ∈ report.documentFields verbosity) :
    (report.documentJson verbosity).get? name = value :=
  Json.get?_ofFields (report.nodup_documentFields verbosity) hfield

theorem at?_summary (verbosity : Verbosity) (report : Report) (path : List String) :
    (report.documentJson verbosity).at? ("summary" :: path) = report.summaryJson.at? path := by
  have hsummary : (report.documentJson verbosity).get? "summary" = some report.summaryJson :=
    get?_documentJson (by simp [documentFields])
  rw [Json.at?, hsummary, Option.bind_some]

/-- What the shorter documents leave out is told from the full one alone. -/
theorem brief_documentJson (hbrief : verbosity ≠ .verbose) (report : Report) :
    brief (report.documentJson .verbose) = report.documentJson verbosity := by
  have hfiltered : (fun package => !isFilteredPackage package) ∘ Entry.toJson =
      fun entry => !entry.outcome.isFiltered := by
    funext entry
    rw [Function.comp_apply, isFilteredPackage_toJson]
  have hdropped : Json.dropField "diff" ∘ Entry.toJson =
      Entry.toJson ∘ fun entry => { entry with diff := none } :=
    funext dropField_toJson
  have hpackages : ((report.entries.map Entry.toJson).filter fun package =>
      !isFilteredPackage package).map (Json.dropField "diff") =
        report.shortened.entries.map Entry.toJson := by
    rw [List.filter_map, List.map_map, hfiltered, hdropped, shortened, List.map_map]
  rw [documentJson_eq, documentJson_eq, brief, Json.mapField_ofFields, documentFields,
    documentFields, packages_verbose, packages_of_ne_verbose hbrief, ← hpackages]
  simp [Json.mapItems]

/-- A document is read as a report of the packages that it lists. -/
theorem ofJson?_documentJson {entries : List Entry}
    (hlegible : { report with entries : Report }.IsLegible)
    (hpackages : (report.entries.filter (isShown verbosity)).map (entryJson verbosity) =
      entries.map Entry.toJson) :
    Report.ofJson? (report.documentJson verbosity) = some { report with entries } := by
  rw [documentJson_eq]
  refine ofJson?_ofFields hlegible (report.nodup_documentFields verbosity) ?_ ?_ ?_ ?_ ?_
  all_goals simp [documentFields, hpackages]

theorem IsLegible.shortened (hlegible : report.IsLegible) : report.shortened.IsLegible where
  versions := by
    intro version hversion
    obtain ⟨_, hshort, hnamed⟩ := List.mem_flatMap.1 hversion
    obtain ⟨entry, hkept, rfl⟩ := List.mem_map.1 hshort
    obtain ⟨hentry, _⟩ := List.mem_filter.1 hkept
    exact hlegible.versions version (List.mem_flatMap_of_mem hentry hnamed)
  times := hlegible.times

end Parts

section Reading

variable {report : Report}

/-- The full document of a report is read as the report.  Any shorter one is the
full one without the packages that were left out and without diffs, in its text
and in what is read; whether the run succeeded and how many packages had which
outcome is told alike in all of them. -/
theorem document_loses_nothing (hlegible : report.IsLegible) :
    readDocument? (showDocument (report.documentJson .verbose)) = some report ∧
      (∀ verbosity, verbosity ≠ .verbose →
        Json.read? (showDocument (report.documentJson verbosity)) =
            (Json.read? (showDocument (report.documentJson .verbose))).map brief ∧
          readDocument? (showDocument (report.documentJson verbosity)) =
            some report.shortened) ∧
      ∀ verbosity, ∃ document,
        Json.read? (showDocument (report.documentJson verbosity)) = some document ∧
          document.get? "success" = some (.flag report.isSuccess) ∧
          (document.at? ["summary", "proposed"]).bind Json.natural? = some report.proposedCount ∧
          (document.at? ["summary", "skipped"]).bind Json.natural? = some report.skippedCount ∧
          (document.at? ["summary", "needs_review"]).bind Json.natural? =
            some report.reviewCount ∧
          (document.at? ["summary", "failed"]).bind Json.natural? = some report.failedCount := by
  simp only [readDocument?, read?_showDocument, Option.bind_some, Option.map_some]
  refine ⟨ofJson?_documentJson hlegible (packages_verbose report), ?_, ?_⟩
  · intro verbosity hbrief
    exact ⟨by rw [brief_documentJson hbrief],
      ofJson?_documentJson hlegible.shortened (packages_of_ne_verbose hbrief report)⟩
  · intro verbosity
    refine ⟨_, rfl, get?_documentJson (by simp [documentFields]), ?_⟩
    rw [at?_summary, at?_summary, at?_summary, at?_summary]
    exact ⟨Json.natural?_natural _, Json.natural?_natural _, Json.natural?_natural _,
      Json.natural?_natural _⟩

end Reading

namespace DocumentExample

def stable : Version := ⟨1, [1, 0], none, none, none, none⟩

def labelled : Version := ⟨1, [2, 0], some (.candidate, 1), some 2, some 3, some "ubuntu.1"⟩

/-- A run that ended in a leap second, with entries of every outcome; one of them
was left out, and one has a diff with quotes, control characters and an emoji. -/
def varied : Report where
  level := .newReleases
  dryRun := true
  startedAt := ⟨1700000000, 0⟩
  finishedAt := some ⟨1700000039, 1123456789⟩
  entries :=
    [{ package := "left", distribution := "left", current := "1!1.0", latest := some labelled,
        outcome := .proposed (.update stable labelled) "stub-sync/left" none,
        diff := some "-\"\\\t\x01\x7f\n+\"😀\r\n" },
      { package := "marked", distribution := "marked", current := "1.*",
        outcome := .skipped (some (.markObsolete stable)) (.proposalPending "stub-sync/marked") },
      { package := "spared", distribution := "spared", current := "1.*",
        outcome := .skipped none .filtered },
      { package := "still", distribution := "still", current := "1.*", latest := some stable,
        outcome := .skipped (some (.rest .upToDate)) (.rest .upToDate) },
      { package := "strange", distribution := "strange", current := "1.*",
        outcome := .review "upper bound exceeded" },
      { package := "torn", distribution := "torn", current := "",
        outcome := .failed "\x7b\"a\": 1\x7d" }]

theorem varied_reads_back :
    varied.IsLegible ∧
      readDocument? (showDocument (varied.documentJson .verbose)) = some varied ∧
      readDocument? (showDocument (varied.documentJson .quiet)) = some varied.shortened ∧
      varied.shortened.entries.map Entry.package =
        ["left", "marked", "still", "strange", "torn"] ∧
      Json.read? (showDocument (varied.documentJson .quiet)) =
        (Json.read? (showDocument (varied.documentJson .verbose))).map brief := by
  have hstable : stable.WellFormed := ⟨by decide, nofun, by decide⟩
  have hlabelled : labelled.WellFormed := by
    refine ⟨by decide, ?_, by decide⟩
    rintro label ⟨rfl⟩
    decide
  have hversions : ∀ version ∈ [labelled, stable, labelled, stable, stable],
      version.WellFormed := by
    simp [hstable, hlabelled]
  have htimes : ∀ time ∈ varied.times, time.IsProper :=
    List.forall_mem_cons.2 ⟨⟨by decide +kernel, by decide, by decide⟩,
      List.forall_mem_singleton.2 ⟨by decide +kernel, by decide, by decide⟩⟩
  have hlegible : varied.IsLegible := IsLegible.of_proper hversions htimes
  obtain ⟨hfull, hshort, _⟩ := document_loses_nothing hlegible
  obtain ⟨hbrief, hshortened⟩ := hshort .quiet (by decide)
  exact ⟨hlegible, hfull, hshortened, by decide, hbrief⟩

end DocumentExample

end Report

end StubSync
