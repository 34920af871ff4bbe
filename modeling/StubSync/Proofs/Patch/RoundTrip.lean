/-
A unified diff is read back as the hunk of the comparison that it spells, and
so it is a patch between the two texts, in both directions.
-/
import StubSync.Proofs.Patch.Hunk
import StubSync.Proofs.Text.Decimal
import StubSync.Proofs.Text.Pieces

namespace StubSync

namespace Patch

open Text (IsFullLine IsOpenLine)

section Ranges

theorem toList_spellRange (before count : Nat) :
    (spellRange before count).toList =
      Decimal.digits (Range.behind before count).start ++
        (if count = 1 then [] else ',' :: Decimal.digits count) := by
  match count with
  | 0 =>
      change (toString before ++ ",0").toList = _
      rw [String.toList_append, Decimal.toList_toString]
      rfl
  | 1 =>
      change (toString (before + 1)).toList = _
      rw [Decimal.toList_toString]
      simp [Range.behind]
  | count + 2 =>
      change (toString (before + 1) ++ "," ++ toString (count + 2)).toList = _
      simp only [String.toList_append, Decimal.toList_toString, List.append_assoc]
      simp [Range.behind]

theorem not_mem_spellRange (before count : Nat) : '\n' ∉ (spellRange before count).toList := by
  have hdigits : ∀ n, '\n' ∉ Decimal.digits n := Decimal.not_mem_digits (by decide)
  rw [toList_spellRange, List.mem_append, not_or]
  refine ⟨hdigits _, ?_⟩
  split
  · exact List.not_mem_nil
  · rw [List.mem_cons, not_or]
    exact ⟨by decide, hdigits count⟩

/-- A range is read up to the space behind it. -/
theorem readRange?_spellRange (before count : Nat) (rest : List Char) :
    readRange? ((spellRange before count).toList ++ ' ' :: rest) =
      some (Range.behind before count, ' ' :: rest) := by
  have hspace := Decimal.noDigitAhead_cons rest (c := ' ') (by decide)
  rw [toList_spellRange]
  by_cases hcount : count = 1
  · rw [if_pos hcount, List.append_nil, readRange?, Decimal.number?_digits _ hspace, hcount]
    rfl
  · rw [if_neg hcount, List.append_assoc, List.cons_append, readRange?,
      Decimal.number?_digits _ (Decimal.noDigitAhead_cons _ (by decide))]
    simp only [Option.bind_eq_bind, Option.bind_some, Decimal.number?_digits _ hspace]
    rfl

/-- The line that heads a hunk. -/
def rangesLine (oldBefore oldCount newBefore newCount : Nat) : Line :=
  "@@ -".toList ++ ((spellRange oldBefore oldCount).toList ++
    (" +".toList ++ ((spellRange newBefore newCount).toList ++ " @@\n".toList)))

theorem toList_ranges (oldBefore oldCount newBefore newCount : Nat) :
    (s!"@@ -{spellRange oldBefore oldCount} +{spellRange newBefore newCount} @@\n").toList =
      rangesLine oldBefore oldCount newBefore newCount := by
  change ("@@ -" ++ spellRange oldBefore oldCount ++ " +" ++
    spellRange newBefore newCount ++ " @@\n").toList = _
  simp only [String.toList_append, List.append_assoc, rangesLine]

theorem readRanges?_rangesLine (oldBefore oldCount newBefore newCount : Nat) :
    readRanges? (rangesLine oldBefore oldCount newBefore newCount) =
      some (Range.behind oldBefore oldCount, Range.behind newBefore newCount) := by
  have hnew : readRange? ((spellRange newBefore newCount).toList ++ " @@\n".toList) =
      some (Range.behind newBefore newCount, " @@\n".toList) :=
    readRange?_spellRange ..
  have hold : ∀ rest, readRange?
      ((spellRange oldBefore oldCount).toList ++ (" +".toList ++ rest)) =
        some (Range.behind oldBefore oldCount, " +".toList ++ rest) :=
    fun rest => readRange?_spellRange ..
  simp only [readRanges?, rangesLine, Text.after?_append, hold, hnew, Option.bind_eq_bind,
    Option.bind_some, if_true]

theorem isFullLine_rangesLine (oldBefore oldCount newBefore newCount : Nat) :
    IsFullLine (rangesLine oldBefore oldCount newBefore newCount) := by
  refine ⟨"@@ -".toList ++ ((spellRange oldBefore oldCount).toList ++
    (" +".toList ++ ((spellRange newBefore newCount).toList ++ " @@".toList))), ?_, ?_⟩
  · simp only [List.mem_append, not_or]
    exact ⟨by decide, not_mem_spellRange _ _, by decide, not_mem_spellRange _ _, by decide⟩
  · simp only [rangesLine, List.append_assoc]
    rfl

end Ranges

section Paths

/-- A line that names a path behind `lead`. -/
def pathLine (lead : List Char) (path : String) : Line :=
  lead ++ (path.toList ++ ['\n'])

theorem readPath?_pathLine (lead : List Char) (path : String) :
    readPath? lead (pathLine lead path) = some path := by
  simp only [readPath?, pathLine, Text.after?_append, Option.bind_eq_bind, Option.bind_some,
    List.getLast?_concat, List.dropLast_concat, if_true, String.ofList_toList]

theorem isFullLine_pathLine {lead : List Char} {path : String} (hlead : '\n' ∉ lead)
    (hpath : '\n' ∉ path.toList) : IsFullLine (pathLine lead path) := by
  refine ⟨lead ++ path.toList, ?_, (List.append_assoc ..).symm⟩
  rw [List.mem_append, not_or]
  exact ⟨hlead, hpath⟩

end Paths

section Entries

/-- A line of a text: with its line feed, or cut off. -/
def Entry.IsLine (entry : Entry) : Prop :=
  IsFullLine entry.line ∨ IsOpenLine entry.line

/-- The line of a hunk that a line with its mark makes. -/
def Entry.spelled (entry : Entry) : Line :=
  entry.mark.char :: entry.line

/-- The lines of a diff that a line of a hunk takes. -/
def Entry.written (entry : Entry) : List Line :=
  if entry.line.getLast? = some '\n' then [entry.spelled]
  else [entry.spelled ++ ['\n'], note]

theorem spellLine_eq (entry : Entry) :
    spellLine entry.mark.char entry.line = entry.written.flatten := by
  have hnote : "\n\\ No newline at end of file\n".toList = '\n' :: note := rfl
  unfold spellLine Entry.written Entry.spelled
  split
  · rw [List.flatten_singleton]
  · rw [hnote]
    simp only [List.flatten_cons, List.flatten_nil, List.append_nil, List.append_assoc,
      List.cons_append, List.nil_append]

theorem spellLines_eq (mark : Mark) (lines : List Line) :
    spellLines mark.char lines = ((marked mark lines).flatMap Entry.written).flatten := by
  induction lines with
  | nil => rfl
  | cons line lines ih =>
      have hline := spellLine_eq ⟨mark, line⟩
      simp only [spellLines, List.map_cons, List.flatten_cons, marked, List.flatMap_cons,
        List.flatten_append] at ih ⊢
      rw [ih, ← hline]

theorem isFullLine_written {entry : Entry} (hentry : entry.IsLine) :
    ∀ line ∈ entry.written, IsFullLine line := by
  have hmark : entry.mark.char ≠ '\n' := by
    cases entry.mark <;> decide
  have hnote : IsFullLine note :=
    ⟨"\\ No newline at end of file".toList, by decide, rfl⟩
  unfold Entry.written
  rcases hentry with hfull | ⟨_, hopen⟩
  · have hlast : entry.line.getLast? = some '\n' := by
      obtain ⟨content, _, hline⟩ := hfull
      rw [hline, List.getLast?_concat]
    rw [if_pos hlast, List.forall_mem_singleton]
    exact hfull.cons hmark
  · have hlast : entry.line.getLast? ≠ some '\n' :=
      fun hlast => hopen (List.mem_of_getLast? hlast)
    rw [if_neg hlast, List.forall_mem_cons, List.forall_mem_singleton]
    refine ⟨Text.isFullLine_append ?_, hnote⟩
    rw [Entry.spelled, List.mem_cons, not_or]
    exact ⟨Ne.symm hmark, hopen⟩

/-- No line of a hunk is taken for a note. -/
theorem head?_written_ne_note (entries : List Entry) :
    (entries.flatMap Entry.written).head? ≠ some note := by
  cases entries with
  | nil => nofun
  | cons entry others =>
      have hmark : entry.mark.char ≠ '\\' := by
        cases entry.mark <;> decide
      intro hhead
      rw [List.flatMap_cons, Entry.written] at hhead
      split at hhead
      · exact hmark (List.cons.inj (Option.some.inj hhead)).1
      · exact hmark (List.cons.inj (Option.some.inj hhead)).1

theorem dropNotes_cons (line : Line) {rest : List Line} (hrest : rest.head? ≠ some note) :
    dropNotes (line :: rest) = line :: dropNotes rest := by
  cases rest with
  | nil => rfl
  | cons next others =>
      have hnext : next ≠ note := fun heq => hrest (congrArg some heq)
      rw [dropNotes, if_neg hnext]

/-- A note takes back the line feed that was written before it. -/
theorem dropNotes_written (entries : List Entry) :
    dropNotes (entries.flatMap Entry.written) = entries.map Entry.spelled := by
  induction entries with
  | nil => rfl
  | cons entry others ih =>
      rw [List.flatMap_cons, List.map_cons, Entry.written]
      split
      · rw [List.singleton_append, dropNotes_cons _ (head?_written_ne_note others), ih]
      · rw [List.cons_append, List.singleton_append, dropNotes, if_pos rfl,
          List.dropLast_concat, ih]

theorem readEntry?_spelled (entry : Entry) : readEntry? entry.spelled = some entry := by
  obtain ⟨mark, line⟩ := entry
  cases mark <;> rfl

theorem readEntries?_cons {entry : Entry} {old new oldLeft newLeft : Nat}
    (htake : entry.mark.takeFrom? old new = some (oldLeft, newLeft)) (rest : List Line) :
    readEntries? old new (entry.spelled :: rest) =
      (readEntries? oldLeft newLeft rest).map fun found => (entry :: found.1, found.2) := by
  rw [readEntries?]
  · simp only [readEntry?_spelled, htake, Option.bind_eq_bind, Option.bind_some]
    cases readEntries? oldLeft newLeft rest <;> rfl
  · rintro rfl rfl
    obtain ⟨mark, line⟩ := entry
    cases mark <;> cases htake

theorem takeFrom?_countP (entry : Entry) (others : List Entry) :
    entry.mark.takeFrom? ((entry :: others).countP (·.mark.isOld))
        ((entry :: others).countP (·.mark.isNew)) =
      some (others.countP (·.mark.isOld), others.countP (·.mark.isNew)) := by
  obtain ⟨mark, line⟩ := entry
  cases mark <;> simp [Mark.isOld, Mark.isNew, Mark.takeFrom?]

/-- The lengths of both sides tell where the lines of a hunk end. -/
theorem readEntries?_spelled (entries : List Entry) (rest : List Line) :
    readEntries? (entries.countP (·.mark.isOld)) (entries.countP (·.mark.isNew))
      (entries.map Entry.spelled ++ rest) = some (entries, rest) := by
  induction entries with
  | nil => simp [readEntries?]
  | cons entry others ih =>
      rw [List.map_cons, List.cons_append, readEntries?_cons (takeFrom?_countP entry others), ih,
        Option.map_some]

end Entries

section Whole

variable {comparison : Comparison} {path old new : String}

theorem Comparison.IsOf.isLine_entries (hof : comparison.IsOf old new) :
    ∀ entry ∈ comparison.entries, entry.IsLine := by
  have hold := Text.isFullLine_or_isOpenLine old.toList
  have hnew := Text.isFullLine_or_isOpenLine new.toList
  rw [hof.old_around, Comparison.oldLines_hunk] at hold
  rw [hof.new_around, Comparison.newLines_hunk] at hnew
  simp only [List.forall_mem_append] at hold hnew
  obtain ⟨⟨_, ⟨hleading, hremoved⟩, htrailing⟩, _⟩ := hold
  obtain ⟨⟨_, ⟨_, hadded⟩, _⟩, _⟩ := hnew
  have hmarked : ∀ mark lines, (∀ line ∈ lines, IsFullLine line ∨ IsOpenLine line) →
      ∀ entry ∈ marked mark lines, entry.IsLine := by
    intro mark lines hlines entry hentry
    obtain ⟨line, hline, rfl⟩ := List.mem_map.1 hentry
    exact hlines line hline
  simp only [Comparison.entries, Comparison.changes, List.forall_mem_append]
  exact ⟨hmarked _ _ hleading, ⟨hmarked _ _ hremoved, hmarked _ _ hadded⟩,
    hmarked _ _ htrailing⟩

/-- The line that heads the hunk of a comparison. -/
def Comparison.rangesLine (comparison : Comparison) : Line :=
  Patch.rangesLine comparison.front.length (comparison.context + comparison.removed.length)
    comparison.front.length (comparison.context + comparison.added.length)

theorem readRanges?_hunk (comparison : Comparison) :
    readRanges? comparison.rangesLine =
      some (comparison.hunk.oldRange, comparison.hunk.newRange) :=
  readRanges?_rangesLine ..

theorem spellHunk_eq (comparison : Comparison) :
    spellHunk comparison =
      comparison.rangesLine ++ (comparison.entries.flatMap Entry.written).flatten := by
  have hfront : comparison.start.length - contextLimit = comparison.front.length := by
    rw [Comparison.front, List.length_take]
    omega
  have hranges := toList_ranges comparison.front.length
    (comparison.context + comparison.removed.length) comparison.front.length
    (comparison.context + comparison.added.length)
  have hcontext := spellLines_eq .context
  have hremoved := spellLines_eq .removed comparison.removed
  have hadded := spellLines_eq .added comparison.added
  rw [← hfront] at hranges
  calc spellHunk comparison
    _ = comparison.rangesLine ++ spellLines ' ' comparison.leading ++
          spellLines '-' comparison.removed ++ spellLines '+' comparison.added ++
          spellLines ' ' comparison.trailing := by
        rw [Comparison.rangesLine, ← hfront, ← hranges]
        rfl
    _ = comparison.rangesLine ++ (comparison.entries.flatMap Entry.written).flatten := by
        simp only [Mark.char] at hcontext hremoved hadded
        simp only [hcontext, hremoved, hadded, Comparison.entries, Comparison.changes,
          List.flatMap_append, List.flatten_append, List.append_assoc]

theorem toList_unified (hne : old ≠ new) :
    (unified path old new).toList = pathLine "--- a/".toList path ++
      (pathLine "+++ b/".toList path ++
        spellHunk (compare (Text.lines old.toList) (Text.lines new.toList))) := by
  rw [unified, if_neg hne]
  change ("--- a/" ++ path ++ "\n+++ b/" ++ path ++ "\n" ++ String.ofList _).toList = _
  simp only [String.toList_append, String.toList_ofList, List.append_assoc, pathLine]
  rfl

/-- The lines of the hunk of two texts. -/
theorem lines_spellHunk (hof : comparison.IsOf old new) :
    Text.lines (spellHunk comparison) =
      comparison.rangesLine :: comparison.entries.flatMap Entry.written := by
  have hwritten : ∀ line ∈ comparison.entries.flatMap Entry.written, IsFullLine line := by
    intro line hline
    obtain ⟨entry, hentry, hwritten⟩ := List.mem_flatMap.1 hline
    exact isFullLine_written (hof.isLine_entries entry hentry) line hwritten
  have hranges : IsFullLine comparison.rangesLine := isFullLine_rangesLine ..
  have hbody := Text.lines_flatten_append hwritten []
  rw [List.append_nil, Text.lines, List.append_nil] at hbody
  rw [spellHunk_eq, Text.lines_append hranges, hbody]

/-- The lines of a diff. -/
theorem lines_unified (hpath : '\n' ∉ path.toList) (hne : old ≠ new)
    (hcomparison : comparison = compare (Text.lines old.toList) (Text.lines new.toList)) :
    Text.lines (unified path old new).toList =
      pathLine "--- a/".toList path :: pathLine "+++ b/".toList path ::
        comparison.rangesLine :: comparison.entries.flatMap Entry.written := by
  have hof : comparison.IsOf old new := hcomparison ▸ Comparison.compare_isOf old new
  rw [toList_unified hne, ← hcomparison, Text.lines_append (isFullLine_pathLine (by decide) hpath),
    Text.lines_append (isFullLine_pathLine (by decide) hpath), lines_spellHunk hof]

theorem oldCount_hunk (comparison : Comparison) :
    comparison.hunk.oldRange.count = comparison.entries.countP (·.mark.isOld) := by
  rw [comparison.hunk_oldCount, Hunk.oldLines, List.length_map, ← List.countP_eq_length_filter]
  rfl

theorem newCount_hunk (comparison : Comparison) :
    comparison.hunk.newRange.count = comparison.entries.countP (·.mark.isNew) := by
  rw [comparison.hunk_newCount, Hunk.newLines, List.length_map, ← List.countP_eq_length_filter]
  rfl

/-- The lines of a hunk are as many as its header tells. -/
theorem readEntries?_hunk (comparison : Comparison) :
    readEntries? comparison.hunk.oldRange.count comparison.hunk.newRange.count
        (dropNotes (comparison.entries.flatMap Entry.written)) =
      some (comparison.entries, []) := by
  have hentries := readEntries?_spelled comparison.entries []
  rw [List.append_nil] at hentries
  rw [dropNotes_written, oldCount_hunk, newCount_hunk, hentries]

/-- What a diff says is read back. -/
theorem read?_unified (hpath : '\n' ∉ path.toList) (hne : old ≠ new)
    (hcomparison : comparison = compare (Text.lines old.toList) (Text.lines new.toList)) :
    read? (unified path old new) = some ⟨path, path, comparison.hunk⟩ := by
  simp only [read?, lines_unified hpath hne hcomparison, readPath?_pathLine, readRanges?_hunk,
    readEntries?_hunk, Option.bind_eq_bind, Option.bind_some, if_true]
  rfl

theorem unified_eq_empty_iff : unified path old new = "" ↔ old = new := by
  constructor
  · intro hempty
    by_cases heq : old = new
    · exact heq
    · have htext : (unified path old new).toList = _ := toList_unified heq
      rw [hempty] at htext
      cases htext
  · intro heq
    rw [unified, if_pos heq]

/-- A diff is empty exactly for equal texts.  Any other diff is read back as one
well-formed hunk, which turns each of the texts into the other. -/
theorem unified_reversible (path old new : String) (hpath : '\n' ∉ path.toList) :
    (unified path old new = "" ↔ old = new) ∧
      (old ≠ new → ∃ hunk, read? (unified path old new) = some ⟨path, path, hunk⟩ ∧
        hunk.IsWellFormed ∧ hunk.applyTo? old = some new ∧
        hunk.reverse.applyTo? new = some old ∧ hunk.IsFramed old new) := by
  refine ⟨unified_eq_empty_iff, ?_⟩
  intro hne
  have hof := Comparison.compare_isOf old new
  exact ⟨_, read?_unified hpath hne rfl, Comparison.isWellFormed_hunk _, hof.applyTo?_hunk,
    hof.applyTo?_reverse, hof.isFramed_hunk hne⟩

end Whole

namespace RoundTripExample

def path : String := "stubs/left/METADATA.toml"

/-- Five lines alike, of which the last one is cut off. -/
def cutOff : String := "a\na\na\na\na"

/-- Lines of the same kind, one less, and an ending of two characters. -/
def shorter : String := "a\na\na\na\r\n"

theorem unified_cutOff :
    unified path cutOff shorter =
        "--- a/stubs/left/METADATA.toml\n+++ b/stubs/left/METADATA.toml\n" ++
          "@@ -1,5 +1,4 @@\n a\n a\n a\n-a\n-a\n\\ No newline at end of file\n+a\r\n" ∧
      ∃ hunk, read? (unified path cutOff shorter) = some ⟨path, path, hunk⟩ ∧
        hunk.applyTo? cutOff = some shorter ∧ hunk.reverse.applyTo? shorter = some cutOff := by
  have hpath : '\n' ∉ path.toList := by decide
  have hne : cutOff ≠ shorter := by decide
  have hspelled : unified path cutOff shorter =
      "--- a/stubs/left/METADATA.toml\n+++ b/stubs/left/METADATA.toml\n" ++
        "@@ -1,5 +1,4 @@\n a\n a\n a\n-a\n-a\n\\ No newline at end of file\n+a\r\n" := by
    decide +kernel
  obtain ⟨_, hdiffer⟩ := unified_reversible path cutOff shorter hpath
  obtain ⟨hunk, hread, _, hforth, hback, _⟩ := hdiffer hne
  exact ⟨hspelled, hunk, hread, hforth, hback⟩

end RoundTripExample

end Patch

end StubSync
