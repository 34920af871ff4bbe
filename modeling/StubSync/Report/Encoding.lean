/-
Reports as JSON values, written and read.
-/
import StubSync.Json.Document
import StubSync.Json.Record
import StubSync.Report.Basic
import StubSync.Time.Reader
import StubSync.Version.Reader

namespace StubSync

def Version.toJson (version : Version) : Json :=
  .text (toString version)

def Version.ofJson? (value : Json) : Option Version :=
  value.text?.bind Version.read?

def Level.toJson (level : Level) : Json :=
  .text level.name

def Level.ofJson? (value : Json) : Option Level :=
  (value.bareName? Json.isNull).bind Level.ofName?

def Rest.toJson (rest : Rest) : Json :=
  .text rest.name

def Rest.ofJson? (value : Json) : Option Rest :=
  (value.bareName? Json.isEmpty).bind Rest.ofName?

def Instant.toJson (instant : Instant) : Json :=
  .text (toString instant)

def Instant.ofJson? (value : Json) : Option Instant :=
  value.text?.bind Instant.read?

namespace Action

def toJson : Action → Json
  | .rest reason => .object [("type", .text "no_action"), ("reason", reason.toJson)]
  | .update current target =>
      .object [("type", .text "update"), ("current", current.toJson), ("target", target.toJson)]
  | .markObsolete since => .object [("type", .text "mark_obsolete"), ("since", since.toJson)]
  | .review reason => .object [("type", .text "needs_review"), ("reason", .text reason)]

/-- The names of the cases, in order. -/
def names : List String :=
  ["no_action", "update", "mark_obsolete", "needs_review"]

/-- The action of a case and its fields. -/
def ofCase? : String × Json → Option Action
  | ("no_action", fields) => do
      let record ← Json.Record.ofJson? ["reason"] fields
      return .rest (← record.required "reason" Rest.ofJson?)
  | ("update", fields) => do
      let record ← Json.Record.ofJson? ["current", "target"] fields
      let current ← record.required "current" Version.ofJson?
      return .update current (← record.required "target" Version.ofJson?)
  | ("mark_obsolete", fields) => do
      let record ← Json.Record.ofJson? ["since"] fields
      return .markObsolete (← record.required "since" Version.ofJson?)
  | ("needs_review", fields) => do
      let record ← Json.Record.ofJson? ["reason"] fields
      return .review (← record.required "reason" Json.text?)
  | _ => none

def ofJson? (value : Json) : Option Action :=
  (value.tagged? "type" Json.text?).bind ofCase?

/-- An action within an outcome, whose case may be given by its place. -/
def ofInner? (value : Json) : Option Action :=
  (value.tagged? "type" (Json.caseName? names)).bind ofCase?

end Action

namespace SkipReason

def toJson : SkipReason → Json
  | .rest reason => .object [("no_action", reason.toJson)]
  | .belowActionLevel => .text "below_action_level"
  | .duplicate => .text "duplicate"
  | .previouslyRejected => .text "previously_rejected"
  | .alreadyMerged => .text "already_merged"
  | .proposalPending branch => .object [("proposal_pending", .object [("branch", .text branch)])]
  | .filtered => .text "filtered"

/-- The reasons that have no value of their own. -/
def bareReasons : List (String × SkipReason) :=
  [("below_action_level", .belowActionLevel), ("duplicate", .duplicate),
    ("previously_rejected", .previouslyRejected), ("already_merged", .alreadyMerged),
    ("filtered", .filtered)]

def ofJson? (value : Json) : Option SkipReason := do
  match ← Json.variant? value with
  | ("no_action", some reason) => (Rest.ofJson? reason).map .rest
  | ("proposal_pending", some fields) => do
      let record ← Json.Record.ofJson? ["branch"] fields
      return .proposalPending (← record.required "branch" Json.text?)
  | _ => (value.bareName? Json.isEmpty).bind fun name => bareReasons.lookup name

end SkipReason

namespace Outcome

def toJson : Outcome → Json
  | .proposed action branch url =>
      Json.ofFields [("status", some (.text "proposed")), ("action", some action.toJson),
        ("branch", some (.text branch)), ("url", url.map .text)]
  | .skipped action reason =>
      Json.ofFields [("status", some (.text "skipped")), ("action", action.map Action.toJson),
        ("reason", some reason.toJson)]
  | .review reason => .object [("status", .text "needs_review"), ("reason", .text reason)]
  | .failed error => .object [("status", .text "failed"), ("error", .text error)]

def ofJson? (value : Json) : Option Outcome := do
  match ← value.tagged? "status" Json.text? with
  | ("proposed", fields) => do
      let record ← Json.Record.ofJson? ["action", "branch", "url"] fields
      let action ← record.required "action" Action.ofInner?
      let branch ← record.required "branch" Json.text?
      return .proposed action branch (← record.optional "url" Json.text?)
  | ("skipped", fields) => do
      let record ← Json.Record.ofJson? ["action", "reason"] fields
      let action ← record.optional "action" Action.ofInner?
      return .skipped action (← record.required "reason" SkipReason.ofJson?)
  | ("needs_review", fields) => do
      let record ← Json.Record.ofJson? ["reason"] fields
      return .review (← record.required "reason" Json.text?)
  | ("failed", fields) => do
      let record ← Json.Record.ofJson? ["error"] fields
      return .failed (← record.required "error" Json.text?)
  | _ => none

end Outcome

namespace Entry

def toJson (entry : Entry) : Json :=
  Json.ofFields [("package", some (.text entry.package)),
    ("upstream", some (.text entry.distribution)), ("current", some (.text entry.current)),
    ("latest", entry.latest.map Version.toJson), ("outcome", some entry.outcome.toJson),
    ("diff", entry.diff.map .text)]

def ofJson? (value : Json) : Option Entry := do
  let record ← Json.Record.ofJson?
    ["package", "upstream", "current", "latest", "outcome", "diff"] value
  return {
    package := ← record.required "package" Json.text?
    distribution := ← record.required "upstream" Json.text?
    current := ← record.required "current" Json.text?
    latest := ← record.optional "latest" Version.ofJson?
    outcome := ← record.required "outcome" Outcome.ofJson?
    diff := ← record.optional "diff" Json.text? }

end Entry

namespace Report

def toJson (report : Report) : Json :=
  Json.ofFields [("action_level", some report.level.toJson),
    ("dry_run", some (.flag report.dryRun)), ("started_at", some report.startedAt.toJson),
    ("finished_at", report.finishedAt.map Instant.toJson),
    ("packages", some (.list (report.entries.map Entry.toJson)))]

def ofJson? (value : Json) : Option Report := do
  let record ← Json.Record.ofJson?
    ["action_level", "dry_run", "started_at", "finished_at", "packages"] value
  return {
    level := ← record.required "action_level" Level.ofJson?
    dryRun := ← record.required "dry_run" Json.flag?
    startedAt := ← record.required "started_at" Instant.ofJson?
    finishedAt := ← record.optional "finished_at" Instant.ofJson?
    entries := ← record.required "packages" (Json.listOf? Entry.ofJson?) }

end Report

end StubSync
