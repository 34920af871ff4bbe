/-
What an edit leaves as it is.

Line by line, an edit gives one value before the first table header anew, or it
adds one line there.  All other lines stand as they stood, and so does everything
from the first table header on.
-/
import Mathlib.Data.List.DropRight
import StubSync.Proofs.Metadata.Edits
import StubSync.Proofs.Metadata.Line
import StubSync.Proofs.Version.RoundTrip

namespace StubSync

namespace Metadata

section Assigning

variable {key line : List Char} {lines : List (List Char)}

/-- The line begins with an assignment of a value in quotes to the key. -/
def Assigns (key line : List Char) : Prop :=
  ∃ assignment : Assignment, assignment.IsAt key line

theorem assigns_iff (hkey : Toml.IsBareKey key) : assigns key line = true ↔ Assigns key line := by
  rw [assigns, Option.isSome_iff_exists]
  constructor
  · rintro ⟨assignment, hassignment⟩
    exact ⟨assignment, Assignment.isAt_of_ofLine? hassignment⟩
  · rintro ⟨assignment, hassignment⟩
    exact ⟨assignment, hassignment.ofLine?_eq hkey⟩

theorem not_assigns_of_mem_linesBefore (hkey : Toml.IsBareKey key) (lines : List (List Char)) :
    ∀ line ∈ linesBefore key lines, ¬ Assigns key line := by
  intro line hline hassigns
  have hfree := List.mem_takeWhile_imp hline
  rw [(assigns_iff hkey).2 hassigns] at hfree
  contradiction

theorem not_assigns_of_any (hkey : Toml.IsBareKey key) (hany : lines.any (assigns key) = false) :
    ∀ line ∈ lines, ¬ Assigns key line := by
  intro line hline hassigns
  rw [List.any_eq_false] at hany
  exact hany line hline ((assigns_iff hkey).2 hassigns)

theorem Assigns.isTableHeader_ended (hassigns : Assigns key line) (hkey : Toml.IsBareKey key) :
    isTableHeader (ended line) = false := by
  obtain ⟨assignment, hassignment⟩ := hassigns
  obtain ⟨close, _, hline⟩ := hassignment.line
  have hheader : ∀ rest, isTableHeader (line ++ rest) = false := by
    intro rest
    rw [hline, List.append_assoc, List.append_assoc]
    exact isTableHeader_lead hkey hassignment.lead _
  rw [ended]
  split
  · simpa using hheader []
  · exact hheader ['\n']

end Assigning

section Lines

variable {source out : String} {key line value : List Char} {head : List (List Char)}
  {before after : List (List Char)} {assignment : Assignment}

/-- A text that begins with lines which are no table headers, and goes on like
another one from its first table header, has no other lines before it. -/
theorem headLines_eq (hlines : Text.lines out.toList = head ++ tailLines source)
    (hheader : ∀ line ∈ head, isTableHeader line = false) :
    headLines out = head ∧ tailLines out = tailLines source := by
  have htail : tailLines out = tailLines source := by
    rw [tailLines, hlines, List.dropWhile_append_of_pos, tailLines, List.dropWhile_idempotent]
    intro line hline
    rw [hheader line hline, Bool.not_false]
  have hparts := headLines_append_tailLines out
  rw [hlines, htail] at hparts
  exact ⟨List.append_cancel_right hparts, htail⟩

theorem lines_withValue (hlines : Text.lines source.toList = before ++ line :: after)
    (hassignment : assignment.IsAt key line) (hvalue : '\n' ∉ value) :
    Text.lines (before.flatten ++ (assignment.withValue value ++ after.flatten)) =
      before ++ assignment.withValue value :: after := by
  obtain ⟨close, hclose, hline⟩ := hassignment.line
  have hfeed : ∀ {mark : Char}, isQuote mark = true → ∀ {content : List Char}, '\n' ∉ content →
      ∀ {last : Char}, isQuote last = true → '\n' ∉ mark :: (content ++ [last]) := by
    intro mark hmark content hcontent last hlast
    rw [List.mem_cons, List.mem_append, List.mem_singleton, not_or, not_or]
    refine ⟨?_, hcontent, ?_⟩
    · rintro rfl
      contradiction
    · rintro rfl
      contradiction
  have hmark := isQuote_iff.2 hassignment.quote
  have hold : '\n' ∉ assignment.quote :: (assignment.value ++ [close]) :=
    hfeed hmark (fun hmem => (hassignment.value _ hmem).2 rfl) hclose
  have hnew : '\n' ∉ assignment.quote :: (value ++ [assignment.quote]) := hfeed hmark hvalue hmark
  -- Between the lead and the trail stands the value with its marks, and no line feed.
  have hline' : line = assignment.lead ++
      (assignment.quote :: (assignment.value ++ [close]) ++ assignment.trail) := by
    rw [hline]
    simp
  have hchanged : assignment.withValue value = assignment.lead ++
      (assignment.quote :: (value ++ [assignment.quote]) ++ assignment.trail) := by
    rw [Assignment.withValue]
    simp
  apply Text.lines_replaced hlines
  · intro hfull
    rw [hline'] at hfull
    rw [hchanged]
    exact hfull.replace (List.cons_ne_nil _ _) hold hnew
  · intro hopen
    rw [hline'] at hopen
    rw [hchanged]
    exact hopen.replace (List.cons_ne_nil _ _) hnew

theorem isFullLine_ended (hline : Text.IsFullLine line ∨ Text.IsOpenLine line) :
    Text.IsFullLine (ended line) := by
  rcases hline with hfull | hopen
  · rw [ended_of_isFullLine hfull]
    exact hfull
  · rw [ended_of_isOpenLine hopen]
    exact Text.isFullLine_append hopen.2

end Lines

section Frames

variable {package : Package} {action : Action} {source out : String}
  {key value added : List Char} {head : List (List Char)}

/-- The texts have the same lines but for one before the first table header, which
is the first that assigns a value to the key.  It has the new value, in the mark that
opened the old one. -/
structure Revalued (key value : List Char) (source out : String) : Prop where
  length : (Text.lines out.toList).length = (Text.lines source.toList).length
  head : ∃ before line after assignment, headLines source = before ++ line :: after ∧
    (∀ other ∈ before, ¬ Assigns key other) ∧ Assignment.IsAt assignment key line ∧
      headLines out = before ++ assignment.withValue value :: after
  tail : tailLines out = tailLines source

/-- The second text has one line more, right behind the first line that assigns a
version; both stand before the first table header. -/
structure Inserted (added : List Char) (source out : String) : Prop where
  head : ∃ before line after, headLines source = before ++ line :: after ∧
    (∀ other ∈ before, ¬ Assigns versionKey other) ∧ Assigns versionKey line ∧
      headLines out = before ++ ended line :: (added ++ ['\n']) :: after
  tail : tailLines out = tailLines source

/-- Lines that are put in place of one before the first table header stay there, and
the others with them. -/
theorem headLines_put {before after put : List (List Char)} {line : List Char}
    (hhead : headLines source = before ++ line :: after)
    (hput : ∀ other ∈ put, isTableHeader other = false)
    (hlines : Text.lines (before.flatten ++ (put.flatten ++ (after ++ tailLines source).flatten)) =
      before ++ (put ++ (after ++ tailLines source)))
    (hout : out = String.ofList ((before ++ (put ++ after)).flatten ++
      (tailLines source).flatten)) :
    headLines out = before ++ (put ++ after) ∧ tailLines out = tailLines source := by
  have hheader := isTableHeader_of_mem_headLines source
  rw [hhead] at hheader
  apply headLines_eq
  · rw [hout, String.toList_ofList]
    simpa using hlines
  · intro other hother
    rw [List.mem_append, List.mem_append] at hother
    rcases hother with hbefore | hmem | hafter
    · exact hheader other (List.mem_append_left _ hbefore)
    · exact hput other hmem
    · exact hheader other (List.mem_append_right _ (List.mem_cons_of_mem line hafter))

theorem revalued_of_replaceValue? (hkey : Toml.IsBareKey key) (hvalue : '\n' ∉ value)
    (hreplace : replaceValue? key value (headLines source) = some head) :
    Revalued key value source (String.ofList (head.flatten ++ (tailLines source).flatten)) := by
  obtain ⟨_, line, after, assignment, hhead, hline, hedited⟩ := replaceValue?_eq_some hreplace
  have hassignment := Assignment.isAt_of_ofLine? hline
  have hfree := not_assigns_of_mem_linesBefore hkey (headLines source)
  generalize linesBefore key (headLines source) = before at hhead hedited hfree
  have hput : ∀ other ∈ [assignment.withValue value], isTableHeader other = false := by
    rw [List.forall_mem_singleton, Assignment.withValue, List.append_assoc]
    exact isTableHeader_lead hkey hassignment.lead _
  have hlines := lines_withValue (lines_eq hhead) hassignment hvalue
  obtain ⟨hhead', htail⟩ := headLines_put hhead hput (by simpa using hlines)
    (congrArg (fun lines => String.ofList (lines.flatten ++ (tailLines source).flatten)) hedited)
  refine ⟨?_, ⟨before, line, after, assignment, hhead, hfree, hassignment, hhead'⟩, htail⟩
  rw [← headLines_append_tailLines, hhead', htail, ← headLines_append_tailLines source, hhead]
  simp

theorem inserted_of_insertAfter? (hfeed : '\n' ∉ added)
    (hbracket : isTableHeader (added ++ ['\n']) = false)
    (hinsert : insertAfter? versionKey added (headLines source) = some head) :
    Inserted added source (String.ofList (head.flatten ++ (tailLines source).flatten)) := by
  obtain ⟨line, after, hhead, hline, hedited⟩ := insertAfter?_eq_some hinsert
  have hassigns := (assigns_iff isBareKey_versionKey).1 hline
  have hfree := not_assigns_of_mem_linesBefore isBareKey_versionKey (headLines source)
  generalize linesBefore versionKey (headLines source) = before at hhead hedited hfree
  have hcut := (Text.isFullLine_of_lines (lines_eq hhead)).imp_right And.left
  have hput : ∀ other ∈ [ended line, added ++ ['\n']], isTableHeader other = false := by
    rw [List.forall_mem_cons, List.forall_mem_singleton]
    exact ⟨hassigns.isTableHeader_ended isBareKey_versionKey, hbracket⟩
  have hfull : ∀ other ∈ [ended line, added ++ ['\n']], Text.IsFullLine other := by
    rw [List.forall_mem_cons, List.forall_mem_singleton]
    exact ⟨isFullLine_ended hcut, Text.isFullLine_append hfeed⟩
  have hlines := Text.lines_spliced (lines_eq hhead) hfull
  obtain ⟨hhead', htail⟩ := headLines_put hhead hput hlines
    (congrArg (fun lines => String.ofList (lines.flatten ++ (tailLines source).flatten)) hedited)
  exact ⟨⟨before, line, after, hhead, hfree, hassigns, hhead'⟩, htail⟩

end Frames

section Written

variable {package : Package} {action : Action} {target version : Version} {out spelling : String}

theorem feed_not_mem_spell (hlabel : ∀ label ∈ version.localLabel, '\n' ∉ label.toList) :
    '\n' ∉ (toString version).toList := by
  change '\n' ∉ (String.ofList version.spell).toList
  rw [String.toList_ofList]
  intro hmem
  rcases Version.isPlain_or_mem_label hmem with hplain | ⟨label, hlocal, hfeed⟩
  · contradiction
  · exact hlabel label hlocal hfeed

theorem feed_not_mem_label (hparse : Version.parse spelling = .ok version) :
    ∀ label ∈ version.localLabel, '\n' ∉ label.toList := by
  intro label hlabel hfeed
  have hwell := Version.wellFormed_of_parse hparse
  have hplain := Version.isPlain_of_isLocalLabel (hwell.isLocalLabel label hlabel) _ hfeed
  contradiction

/-- What an action writes stays on its line. -/
theorem feed_not_mem_writtenValue (package : Package)
    (htarget : ∀ target ∈ action.target?, ∃ spelling, Version.parse spelling = .ok target) :
    '\n' ∉ writtenValue package action := by
  cases action with
  | update current target =>
      obtain ⟨spelling, hparse⟩ := htarget target rfl
      rw [writtenValue, Constraint.bumpedTo]
      split
      -- A series is written without a local label, whatever the target has.
      · rw [String.toList_append, List.mem_append, not_or]
        exact ⟨feed_not_mem_spell nofun, by decide⟩
      · exact feed_not_mem_spell (feed_not_mem_label hparse)
  | markObsolete since =>
      obtain ⟨spelling, hparse⟩ := htarget since rfl
      exact feed_not_mem_spell (feed_not_mem_label hparse)
  | rest reason => exact List.not_mem_nil
  | review reason => exact List.not_mem_nil

/-- What the text of an edit has in place of the metadata's, and how it is read. -/
inductive Writes (package : Package) (out : String) : Action → Prop where
  | updated {current target : Version} {edited : Package}
      (text : Revalued versionKey (package.minVersion.bumpedTo target).toList
        package.metadataSource out)
      (parsed : parse package.name package.metadataPath out = .ok edited)
      (minVersion : edited.minVersion.raw = package.minVersion.bumpedTo target) :
      Writes package out (.update current target)
  | marked {since : Version} {edited : Package}
      (assigned : ∃ line ∈ headLines package.metadataSource, Assigns obsoleteKey line)
      (text : Revalued obsoleteKey (toString since).toList package.metadataSource out)
      (parsed : parse package.name package.metadataPath out = .ok edited)
      (obsoleteSince : edited.obsoleteSince = some (toString since)) :
      Writes package out (.markObsolete since)
  | added {since : Version} {edited : Package}
      (unassigned : ∀ line ∈ headLines package.metadataSource, ¬ Assigns obsoleteKey line)
      (text : Inserted ("obsolete_since = \"".toList ++ (toString since).toList ++ ['"'])
        package.metadataSource out)
      (parsed : parse package.name package.metadataPath out = .ok edited)
      (obsoleteSince : edited.obsoleteSince = some (toString since)) :
      Writes package out (.markObsolete since)

theorem Revalued.exists_assigns {key value : List Char} {source : String}
    (hrevalued : Revalued key value source out) : ∃ line ∈ headLines source, Assigns key line := by
  obtain ⟨before, line, after, assignment, hsource, _, hassignment, _⟩ := hrevalued.head
  refine ⟨line, ?_, assignment, hassignment⟩
  rw [hsource]
  exact List.mem_append_right _ List.mem_cons_self

/-- A verdict that asks for no edit is refused.  An edit for any other changes one
line or adds one, before the first table header, and what it writes is read back as
the verdict asks for. -/
theorem edit_writes_one_line (package : Package) :
    (∀ reason, edit package (.rest reason) =
      .error (.unchangeable package.metadataPath "'none' does not change metadata")) ∧
    (∀ reason, edit package (.review reason) =
      .error (.unchangeable package.metadataPath "'review' does not change metadata")) ∧
    ∀ action out,
      (∀ target ∈ action.target?, ∃ spelling, Version.parse spelling = .ok target) →
        edit package action = .ok out → Writes package out action := by
  refine ⟨fun reason => rfl, fun reason => rfl, ?_⟩
  intro action out htarget hedit
  have hfeed := feed_not_mem_writtenValue package htarget
  obtain ⟨head, hhead, rfl, edited, hparsed, hcarried⟩ := exists_head_of_edit hedit
  have hcases := editHead_cases hhead
  cases action with
  | update current target =>
      obtain hreplace | ⟨⟨since, hsince⟩, _⟩ := hcases
      · have htext := revalued_of_replaceValue? isBareKey_versionKey hfeed hreplace
        exact .updated htext hparsed (eq_of_beq hcarried)
      · contradiction
  | markObsolete since =>
      obtain hreplace | ⟨_, hnone, hinsert⟩ := hcases
      · have htext := revalued_of_replaceValue? isBareKey_obsoleteKey hfeed hreplace
        exact .marked htext.exists_assigns htext hparsed (eq_of_beq hcarried)
      · have hfree := not_assigns_of_any isBareKey_obsoleteKey (replaceValue?_eq_none hnone)
        have hadded : '\n' ∉ obsoleteKey ++ " = \"".toList ++
            writtenValue package (.markObsolete since) ++ ['"'] := by
          rw [List.mem_append, List.mem_append, not_or, not_or]
          exact ⟨⟨by decide, hfeed⟩, by decide⟩
        have hbracket := isTableHeader_lead isBareKey_obsoleteKey (isKeyLead_equals obsoleteKey)
        have htext := inserted_of_insertAfter? hadded (hbracket _) hinsert
        exact .added hfree htext hparsed (eq_of_beq hcarried)
  | rest reason => cases hhead
  | review reason => cases hhead

end Written

namespace FrameExample

def next : Version := ⟨0, [1, 1], none, none, none, none⟩

def stubs (source : String) : Package where
  name := "left"
  distribution := "left"
  minVersion := ⟨"1.0", ⟨0, [1, 0], none, none, none, none⟩, false⟩
  metadataPath := "stubs/left/METADATA.toml"
  metadataSource := source

/-- An indented line whose marks are not alike, in front of a comment and of a table
with a version of its own. -/
def indented : String :=
  "\tversion= '1.0\" # declared\r\n[tool]\r\nversion = \"9\""

def bumped : String :=
  "\tversion= '1.1' # declared\r\n[tool]\r\nversion = \"9\""

def marked : String :=
  "version = '1.0'\nobsolete_since = \"1.1\"\n"

theorem edit_writes_version_and_mark :
    edit (stubs indented) (.update (stubs indented).minVersion.version next) = .ok bumped ∧
      Writes (stubs indented) bumped (.update (stubs indented).minVersion.version next) ∧
      edit (stubs "version = '1.0'") (.markObsolete next) = .ok marked ∧
      Writes (stubs "version = '1.0'") marked (.markObsolete next) := by
  have hnext : ∀ target ∈ some next, ∃ spelling, Version.parse spelling = .ok target := by
    rintro target ⟨rfl⟩
    exact ⟨"1.1", by rfl⟩
  have hbumped : edit (stubs indented) (.update (stubs indented).minVersion.version next) =
      .ok bumped := by decide +kernel
  have hmarked : edit (stubs "version = '1.0'") (.markObsolete next) = .ok marked := by
    decide +kernel
  refine ⟨hbumped, ?_, hmarked, ?_⟩
  · exact (edit_writes_one_line (stubs indented)).2.2 _ _ hnext hbumped
  · exact (edit_writes_one_line (stubs "version = '1.0'")).2.2 _ _ hnext hmarked

end FrameExample

end Metadata

end StubSync
