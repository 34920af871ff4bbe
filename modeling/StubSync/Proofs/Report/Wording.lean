/-
What a report says as text, whatever it looks like.

The wording of a line is put down without styles, with the arrow between the
versions as the one thing that is left open.  A plain text is its wording, and
so is a text with escape codes when these are taken out.
-/
import StubSync.Proofs.Text.Styled
import StubSync.Report.Text

namespace StubSync

open Style (IsFree Shows withoutCodes)

section Texts

def Action.texts : Action → List String
  | .rest _ => []
  | .update current target => [toString current, toString target]
  | .markObsolete since => [toString since]
  | .review reason => [reason]

def SkipReason.texts : SkipReason → List String
  | .proposalPending branch => [branch]
  | _ => []

def Outcome.texts : Outcome → List String
  | .proposed action branch url => action.texts ++ branch :: url.toList
  | .skipped action reason => action.toList.flatMap Action.texts ++ reason.texts
  | .review reason => [reason]
  | .failed error => [error]

/-- All texts of an entry. -/
def Entry.texts (entry : Entry) : List String :=
  entry.package :: entry.distribution :: entry.current ::
    (entry.latest.toList.map toString ++ entry.outcome.texts ++ entry.diff.toList)

/-- No text of the entry contains an escape character. -/
def Entry.IsFree (entry : Entry) : Prop :=
  ∀ text ∈ entry.texts, Style.IsFree text

instance (entry : Entry) : Decidable entry.IsFree :=
  inferInstanceAs (Decidable (∀ text ∈ entry.texts, Style.IsFree text))

section Parts

variable {entry : Entry} (hentry : entry.IsFree)

include hentry

theorem Entry.IsFree.package : Style.IsFree entry.package :=
  hentry _ (by simp [texts])

theorem Entry.IsFree.current : Style.IsFree entry.current :=
  hentry _ (by simp [texts])

theorem Entry.IsFree.latest : ∀ version ∈ entry.latest, Style.IsFree (toString version) := by
  intro version hversion
  apply hentry
  simp [texts, Option.mem_def.1 hversion]

theorem Entry.IsFree.outcome : ∀ text ∈ entry.outcome.texts, Style.IsFree text := by
  intro text htext
  apply hentry
  simp [texts, htext]

end Parts

end Texts

namespace Report

section Wording

def changeName : Action → String
  | .update current target => if current.crossesMajor target then "major" else "minor"
  | .markObsolete _ => "obsolete"
  | .rest _ | .review _ => ""

def linkWording : Option String → String
  | some url => s!"  {url}"
  | none => ""

def latestWording : Option Version → String
  | some version => s!" (latest {version})"
  | none => ""

/-- The words of an entry's line; the arrow only stands in proposals. -/
def lineWording (arrow : String) (width : Nat) (entry : Entry) : String :=
  let name := padName width entry.package
  match entry.outcome with
  | .proposed action _ url =>
      let ends := changeEnds entry action
      s!"  {name} {ends.1} {arrow} {ends.2} [{changeName action}]{linkWording url}"
  | .review reason => s!"  {name} {reason}{latestWording entry.latest}"
  | .failed error => s!"  {name} {error}"
  | .skipped _ reason => s!"  {name} ({reason})"

def dryRunWording (report : Report) : String :=
  if report.dryRun then "(dry-run) " else ""

def sectionWording (arrow : String) (width : Nat) (title : String) (entries : List Entry) :
    List String :=
  if entries.isEmpty then [] else title :: entries.map (lineWording arrow width) ++ [""]

def summaryWording (report : Report) : String :=
  s!"{report.dryRunWording}{report.proposedCount} proposed, {report.skippedCount} skipped, " ++
    s!"{report.reviewCount} need review, {report.failedCount} failed " ++
    s!"(action level: {report.level})"

/-- The lines of a report as text. -/
def wording (arrow : String) (verbosity : Verbosity) (report : Report) : List String :=
  let listed := report.entries.filter (isListed verbosity)
  let width := (listed.map fun entry => entry.package.utf8ByteSize).foldl max nameWidth
  let part := fun title (kind : Outcome → Bool) =>
    sectionWording arrow width title (listed.filter fun entry => kind entry.outcome)
  part (report.dryRunWording ++ "Proposed:") Outcome.isProposed ++
    part "Needs review:" Outcome.isReview ++ part "Failed:" Outcome.isFailed ++
    part "Skipped:" Outcome.isSkipped ++ [report.summaryWording]

/-- Lines in one text, each with its end. -/
def unlines (lines : List String) : String :=
  String.ofList (lines.flatMap fun line => line.toList ++ ['\n'])

end Wording

variable {look : Look} {width : Nat} {entry : Entry} {report : Report}

theorem toString_text (text : String) : toString text = text :=
  rfl

/-- The arrow stands once in the line of a proposal, and in no other line. -/
theorem lineWording_arrow (width : Nat) (entry : Entry) :
    (entry.outcome.isProposed = true →
      ∃ front back, ∀ arrow, lineWording arrow width entry = front ++ arrow ++ back) ∧
    (entry.outcome.isProposed = false →
      ∀ arrow other, lineWording arrow width entry = lineWording other width entry) := by
  cases houtcome : entry.outcome with
  | proposed action branch url =>
      refine ⟨fun _ => ?_, nofun⟩
      let ends := changeEnds entry action
      refine ⟨"  " ++ padName width entry.package ++ " " ++ ends.1 ++ " ",
        " " ++ ends.2 ++ " [" ++ changeName action ++ "]" ++ linkWording url, fun arrow => ?_⟩
      simp only [lineWording, houtcome, toString_text, String.append_assoc]
      rfl
  | review reason => simp [lineWording, houtcome, Outcome.isProposed]
  | failed error => simp [lineWording, houtcome, Outcome.isProposed]
  | skipped action reason => simp [lineWording, houtcome, Outcome.isProposed]

theorem render_changeLabel (action : Action) :
    (changeLabel action).render false = (changeName action).toList := by
  cases action with
  | update current target =>
      simp only [changeLabel, changeName]
      split <;> rfl
  | markObsolete since => rfl
  | rest reason => rfl
  | review reason => rfl

theorem render_lineOf (look : Look) (width : Nat) (entry : Entry) :
    (lineOf look width entry).render false = (lineWording look.arrow width entry).toList := by
  cases houtcome : entry.outcome with
  | proposed action branch url =>
      cases url <;>
        simp [lineOf, lineWording, houtcome, linkWording, render_changeLabel, toString_text]
  | review reason =>
      cases hlatest : entry.latest <;>
        simp [lineOf, lineWording, houtcome, latestWording, hlatest, toString_text]
  | failed error => simp [lineOf, lineWording, houtcome, toString_text]
  | skipped action reason => simp [lineOf, lineWording, houtcome, toString_text]

theorem render_dryRunMark (report : Report) :
    report.dryRunMark.render false = report.dryRunWording.toList := by
  unfold dryRunMark dryRunWording
  split <;> rfl

theorem render_summaryLine (report : Report) :
    report.summaryLine.render false = report.summaryWording.toList := by
  simp [summaryLine, summaryWording, render_dryRunMark, toString_text]

theorem isClean_changeLabel (action : Action) : (changeLabel action).IsClean := by
  cases action with
  | update current target =>
      simp only [changeLabel]
      split
      · exact Styled.isClean_ofText.2 (by decide)
      · exact Styled.isClean_ofText.2 (by decide)
  | markObsolete since => exact Styled.isClean_ofText.2 (by decide)
  | rest reason => exact Styled.isClean_plain.2 (by decide)
  | review reason => exact Styled.isClean_plain.2 (by decide)

theorem isFree_padName {name : String} (hname : IsFree name) (width : Nat) :
    IsFree (padName width name) := by
  rw [padName, Style.isFree_append]
  refine ⟨hname, ?_⟩
  rw [IsFree, String.toList_ofList]
  intro hmem
  exact absurd (List.eq_of_mem_replicate hmem) (by decide)

theorem isFree_rest (reason : Rest) : IsFree (toString reason) := by
  cases reason <;> decide

theorem isFree_changeEnds (hcurrent : IsFree entry.current) {action : Action}
    (haction : ∀ text ∈ action.texts, IsFree text) :
    IsFree (changeEnds entry action).1 ∧ IsFree (changeEnds entry action).2 := by
  cases action with
  | update current target =>
      exact ⟨haction _ List.mem_cons_self, haction _ (List.mem_cons_of_mem _ List.mem_cons_self)⟩
  | markObsolete since =>
      simp only [changeEnds, Style.isFree_append]
      exact ⟨hcurrent, by decide, haction _ List.mem_cons_self⟩
  | rest reason =>
      have hreason : ∀ reason : Rest, IsFree (toString (Action.rest reason)) := by
        intro reason
        cases reason <;> decide
      exact ⟨hcurrent, hreason reason⟩
  | review reason =>
      refine ⟨hcurrent, ?_⟩
      change IsFree (toString "needs review: " ++ toString reason)
      exact Style.isFree_append.2 ⟨by decide, haction _ List.mem_cons_self⟩

theorem isFree_skipReason {reason : SkipReason} (hreason : ∀ text ∈ reason.texts, IsFree text) :
    IsFree (toString reason) := by
  cases reason with
  | rest reason => exact isFree_rest reason
  | proposalPending branch =>
      change IsFree (toString "another proposal is open (" ++ toString branch ++ toString ")")
      rw [Style.isFree_append, Style.isFree_append]
      exact ⟨⟨by decide, hreason branch List.mem_cons_self⟩, by decide⟩
  | belowActionLevel => decide
  | duplicate => decide
  | previouslyRejected => decide
  | alreadyMerged => decide
  | filtered => decide

theorem isFree_arrow (look : Look) : IsFree look.arrow := by
  cases look with
  | plain => decide
  | rich escapes => exact (by decide : IsFree "→")

theorem isFree_linkWording {url : Option String} (hurl : ∀ text ∈ url, IsFree text) :
    IsFree (linkWording url) := by
  cases url with
  | none => decide
  | some url => exact Style.isFree_append.2 ⟨by decide, hurl url rfl⟩

theorem isFree_latestWording {latest : Option Version}
    (hlatest : ∀ version ∈ latest, IsFree (toString version)) :
    IsFree (latestWording latest) := by
  cases latest with
  | none => decide
  | some version =>
      simp only [latestWording, Style.isFree_append]
      exact ⟨⟨by decide, hlatest version rfl⟩, by decide⟩

theorem isClean_lineOf (hentry : entry.IsFree) (look : Look) (width : Nat) :
    (lineOf look width entry).IsClean := by
  have hname := isFree_padName hentry.package width
  have houtcome := hentry.outcome
  unfold lineOf
  generalize entry.outcome = outcome at houtcome
  cases outcome with
  | proposed action branch url =>
      obtain ⟨hbefore, hafter⟩ := isFree_changeEnds hentry.current
        fun text htext => houtcome text (List.mem_append_left _ htext)
      have hlink : IsFree (linkWording url) := by
        refine isFree_linkWording fun text htext => houtcome text ?_
        simp [Outcome.texts, Option.mem_def.1 htext]
      simp only [Styled.isClean_append, Styled.isClean_ofText, Styled.isClean_plain,
        Style.isFree_append, and_assoc]
      exact ⟨by decide, hname, by decide, hbefore, by decide, isFree_arrow look, by decide, hafter,
        by decide, isClean_changeLabel action, by decide, hlink⟩
  | review reason =>
      have hlatest := isFree_latestWording hentry.latest
      simp only [Styled.isClean_append, Styled.isClean_ofText, Styled.isClean_plain,
        Style.isFree_append, and_assoc]
      exact ⟨by decide, hname, by decide, houtcome reason List.mem_cons_self, hlatest⟩
  | failed error =>
      simp only [Styled.isClean_append, Styled.isClean_ofText, Styled.isClean_plain,
        Style.isFree_append, and_assoc]
      exact ⟨by decide, hname, by decide, houtcome error List.mem_cons_self⟩
  | skipped action reason =>
      have hreason := isFree_skipReason
        fun text htext => houtcome text (List.mem_append_right _ htext)
      simp only [Styled.isClean_append, Styled.isClean_ofText, Styled.isClean_plain,
        Style.isFree_append, and_assoc]
      exact ⟨by decide, hname, by decide, by decide, hreason, by decide⟩

theorem isClean_dryRunMark (report : Report) : report.dryRunMark.IsClean := by
  unfold dryRunMark
  split
  · exact ⟨Styled.isClean_ofText.2 (by decide), Styled.isClean_plain.2 (by decide)⟩
  · exact Styled.isClean_plain.2 (by decide)

theorem isFree_toString (n : Nat) : IsFree (toString n) := by
  rw [IsFree, Decimal.toList_toString]
  exact Decimal.not_mem_digits (by decide) n

theorem isFree_level (level : Level) : IsFree (toString level) := by
  cases level <;> decide

theorem isClean_summaryLine (report : Report) : report.summaryLine.IsClean := by
  unfold summaryLine
  simp only [Styled.isClean_append, Styled.isClean_ofText, Styled.isClean_plain,
    Style.isFree_append, and_assoc]
  exact ⟨isClean_dryRunMark report, isFree_toString _, by decide, isFree_toString _, by decide,
    isFree_toString _, by decide, isFree_toString _, by decide, by decide,
    isFree_level report.level, by decide⟩

theorem isClean_outcomeSection {title : Styled} {entries : List Entry} (htitle : title.IsClean)
    (hentries : ∀ entry ∈ entries, entry.IsFree) (look : Look) (width : Nat) :
    ∀ line ∈ outcomeSection look width title entries, line.IsClean := by
  intro line hline
  unfold outcomeSection at hline
  split at hline
  · cases hline
  · rcases List.mem_append.1 hline with hline | hline
    · rcases List.mem_cons.1 hline with rfl | hline
      · exact htitle
      · obtain ⟨entry, hentry, rfl⟩ := List.mem_map.1 hline
        exact isClean_lineOf (hentries entry hentry) look width
    · rw [List.mem_singleton.1 hline]
      exact Styled.isClean_plain.2 (by decide)

theorem render_outcomeSection {title : Styled} {words : String}
    (htitle : title.render false = words.toList) (look : Look) (width : Nat)
    (entries : List Entry) :
    (outcomeSection look width title entries).map (Styled.render false) =
      (sectionWording look.arrow width words entries).map String.toList := by
  unfold outcomeSection sectionWording
  split
  · rfl
  · simp [htitle, render_lineOf]

/-- The lines of a report, the summary included. -/
def lines (look : Look) (verbosity : Verbosity) (report : Report) : List Styled :=
  report.sections look verbosity ++ [report.summaryLine]

theorem isClean_lines (hreport : ∀ entry ∈ report.entries, entry.IsFree) (look : Look)
    (verbosity : Verbosity) : ∀ line ∈ report.lines look verbosity, line.IsClean := by
  have hlisted (kind : Outcome → Bool) :
      ∀ entry ∈ (report.entries.filter (isListed verbosity)).filter fun entry =>
        kind entry.outcome, entry.IsFree := by
    intro entry hentry
    exact hreport entry (List.mem_filter.1 (List.mem_filter.1 hentry).1).1
  have hplain {words : String} (hwords : IsFree words) : (Styled.plain words).IsClean := hwords
  have hproposed : (report.dryRunMark ++ Styled.plain "Proposed:").IsClean :=
    ⟨isClean_dryRunMark report, hplain (by decide)⟩
  simp only [lines, sections, List.forall_mem_append]
  exact ⟨⟨⟨⟨isClean_outcomeSection hproposed (hlisted Outcome.isProposed) look _,
    isClean_outcomeSection (hplain (by decide)) (hlisted Outcome.isReview) look _⟩,
    isClean_outcomeSection (hplain (by decide)) (hlisted Outcome.isFailed) look _⟩,
    isClean_outcomeSection (hplain (by decide)) (hlisted Outcome.isSkipped) look _⟩,
    List.forall_mem_singleton.2 (isClean_summaryLine report)⟩

theorem render_lines (look : Look) (verbosity : Verbosity) (report : Report) :
    (report.lines look verbosity).map (Styled.render false) =
      (report.wording look.arrow verbosity).map String.toList := by
  have hproposed : (report.dryRunMark ++ Styled.plain "Proposed:").render false =
      (report.dryRunWording ++ "Proposed:").toList := by
    rw [Styled.render_append, render_dryRunMark, String.toList_append]
    rfl
  have hplain (words : String) : (Styled.plain words).render false = words.toList := rfl
  simp only [lines, sections, wording, List.map_append, render_outcomeSection hproposed,
    render_outcomeSection (hplain _), List.map_singleton, render_summaryLine]

/-- Lines without escape codes are their words. -/
theorem showLines_of_plain {look : Look} {lines : List Styled} {words : List String}
    (hlook : look.escapes = false)
    (hlines : lines.map (Styled.render false) = words.map String.toList) :
    showLines look lines = unlines words := by
  have hlines := congrArg (List.flatMap (· ++ ['\n'])) hlines
  rw [List.flatMap_map, List.flatMap_map] at hlines
  rw [showLines, unlines, hlook, hlines]

theorem shows_lines {lines : List Styled} (hlines : ∀ line ∈ lines, line.IsClean) :
    Shows (lines.flatMap fun line => line.render true ++ ['\n'])
      (lines.flatMap fun line => line.render false ++ ['\n']) := by
  induction lines with
  | nil => exact .nil
  | cons line lines ih =>
      rw [List.forall_mem_cons] at hlines
      rw [List.flatMap_cons, List.flatMap_cons]
      have hend : Shows ['\n'] ['\n'] := Style.shows_self (by decide)
      exact ((Styled.shows_render hlines.1).append hend).append (ih hlines.2)

/-- Lines with escape codes are their words when the codes are taken out. -/
theorem withoutCodes_showLines {lines : List Styled} {words : List String}
    (hclean : ∀ line ∈ lines, line.IsClean)
    (hlines : lines.map (Styled.render false) = words.map String.toList) :
    withoutCodes (showLines (.rich true) lines) = unlines words := by
  have hplain : showLines .plain lines = unlines words := showLines_of_plain rfl hlines
  rw [← hplain, withoutCodes, showLines, String.toList_ofList]
  exact congrArg String.ofList (shows_lines hclean).strippedFrom_eq

/-- A coloured text and a plain one have the same wording, line by line, but for
the arrow, which stands once in each line of a proposal and nowhere else. -/
theorem coloured_words (verbosity : Verbosity)
    (hreport : ∀ entry ∈ report.entries, entry.IsFree) :
    (report.toText .plain verbosity = unlines (report.wording "->" verbosity) ∧
      withoutCodes (report.toText (.rich true) verbosity) =
        unlines (report.wording "→" verbosity)) ∧
    (report.summaryText .plain = unlines [report.summaryWording] ∧
      withoutCodes (report.summaryText (.rich true)) = unlines [report.summaryWording]) ∧
    (∀ entry : Entry, entry.IsFree →
      entryText .plain entry =
          unlines [lineWording "->" entry.package.utf8ByteSize entry] ∧
        withoutCodes (entryText (.rich true) entry) =
          unlines [lineWording "→" entry.package.utf8ByteSize entry]) ∧
    ∀ (width : Nat) (entry : Entry),
      (entry.outcome.isProposed = true →
        ∃ front back, ∀ arrow, lineWording arrow width entry = front ++ arrow ++ back) ∧
      (entry.outcome.isProposed = false →
        ∀ arrow other, lineWording arrow width entry = lineWording other width entry) := by
  have hsummary : [report.summaryLine].map (Styled.render false) =
      [report.summaryWording].map String.toList :=
    congrArg ([·]) (render_summaryLine report)
  have hentry (look : Look) (entry : Entry) :
      [lineOf look entry.package.utf8ByteSize entry].map (Styled.render false) =
        [lineWording look.arrow entry.package.utf8ByteSize entry].map String.toList :=
    congrArg ([·]) (render_lineOf look entry.package.utf8ByteSize entry)
  refine ⟨⟨?_, ?_⟩, ⟨?_, ?_⟩, fun entry hfree => ⟨?_, ?_⟩, lineWording_arrow⟩
  · exact showLines_of_plain rfl (render_lines .plain verbosity report)
  · exact withoutCodes_showLines (isClean_lines hreport (.rich true) verbosity)
      (render_lines (.rich true) verbosity report)
  · exact showLines_of_plain rfl hsummary
  · exact withoutCodes_showLines (List.forall_mem_singleton.2 (isClean_summaryLine report))
      hsummary
  · exact showLines_of_plain rfl (hentry .plain entry)
  · exact withoutCodes_showLines (List.forall_mem_singleton.2 (isClean_lineOf hfree _ _))
      (hentry (.rich true) entry)

namespace WordingExample

def final (release : List Nat) : Version :=
  ⟨0, release, none, none, none, none⟩

/-- One entry of each kind in a dry run; the first has no link, and its name has
more bytes than characters. -/
def mixed : Report where
  level := .everything
  dryRun := true
  startedAt := ⟨0, 0⟩
  entries := [
    { package := "größe-und-länge-der-stubs", distribution := "x", current := "1.0.*"
      outcome := .proposed (.update (final [1, 0]) (final [2, 0])) "stubsabot/x/bump-2.0" none },
    { package := "typed", distribution := "typed", current := "3"
      outcome := .proposed (.markObsolete (final [4])) "stubsabot/typed/obsolete-4" (some "url") },
    { package := "odd", distribution := "odd", current := "1", latest := some (final [5])
      outcome := .review "a[0m -> b" },
    { package := "lost", distribution := "lost", current := "1", outcome := .failed "HTTP 500" },
    { package := "done", distribution := "done", current := "1"
      outcome := .skipped none .alreadyMerged }]

theorem mixed_words :
    (∀ entry ∈ mixed.entries, entry.IsFree) ∧
      withoutCodes (mixed.toText (.rich true) .verbose) = unlines
        ["(dry-run) Proposed:",
          "  größe-und-länge-der-stubs    1.0 → 2.0 [major]",
          "  typed                        3 → obsolete since 4 [obsolete]  url", "",
          "Needs review:", "  odd                          a[0m -> b (latest 5)", "",
          "Failed:", "  lost                         HTTP 500", "",
          "Skipped:", "  done                         (already merged)", "",
          "(dry-run) 2 proposed, 1 skipped, 1 need review, 1 failed (action level: everything)"] ∧
      mixed.toText .plain .verbose = unlines (mixed.wording "->" .verbose) := by
  have hfree : ∀ entry ∈ mixed.entries, entry.IsFree := by decide +kernel
  obtain ⟨⟨hplain, hcoloured⟩, _⟩ := coloured_words .verbose hfree
  refine ⟨hfree, ?_, hplain⟩
  rw [hcoloured]
  exact congrArg unlines (by decide +kernel)

end WordingExample

end Report

end StubSync
