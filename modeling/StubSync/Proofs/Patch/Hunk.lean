/-
The hunk of a comparison turns each of the two texts into the other.
-/
import StubSync.Proofs.Patch.Reader
import StubSync.Proofs.Text.Lines

namespace StubSync

namespace Patch

section Comparing

theorem commonStart_append (left right : List Line) :
    left = (commonStart left right).1 ++ (commonStart left right).2.1 ∧
      right = (commonStart left right).1 ++ (commonStart left right).2.2 := by
  fun_induction commonStart left right with
  | case1 left a right common left' right' hcommon ih =>
      rw [hcommon] at ih
      exact ⟨congrArg (a :: ·) ih.1, congrArg (a :: ·) ih.2⟩
  | case2 a left b right hne => exact ⟨rfl, rfl⟩
  | case3 left right hends => exact ⟨rfl, rfl⟩

/-- The parts of a comparison make up both lists. -/
theorem compare_append (old new : List Line) :
    old = (compare old new).start ++ (compare old new).removed ++ (compare old new).finish ∧
      new = (compare old new).start ++ (compare old new).added ++ (compare old new).finish := by
  have hstart := commonStart_append old new
  unfold compare
  generalize commonStart old new = parts at hstart
  obtain ⟨start, left, right⟩ := parts
  have hfinish := commonStart_append left.reverse right.reverse
  simp only
  generalize commonStart left.reverse right.reverse = ends at hfinish
  obtain ⟨finish, left', right'⟩ := ends
  obtain ⟨hleft, hright⟩ := hfinish
  rw [List.reverse_eq_iff, List.reverse_append] at hleft hright
  rw [hstart.1, hstart.2, hleft, hright, List.append_assoc, List.append_assoc]
  exact ⟨rfl, rfl⟩

end Comparing

section Applying

variable {hunk : Hunk}

/-- A hunk whose old lines stand where its header says puts the new lines
there. -/
theorem Hunk.applyTo?_eq {text : String} {front back : List Line}
    (hlines : Text.lines text.toList = front ++ hunk.oldLines ++ back)
    (hbefore : hunk.oldRange.before? = some front.length)
    (hcount : hunk.oldRange.count = hunk.oldLines.length) :
    hunk.applyTo? text = some (String.ofList (front ++ hunk.newLines ++ back).flatten) := by
  have hlater : (front ++ hunk.oldLines ++ back).drop front.length =
      hunk.oldLines ++ back := by
    rw [List.append_assoc, List.drop_left]
  have hfront : (front ++ hunk.oldLines ++ back).take front.length = front := by
    rw [List.append_assoc, List.take_left]
  have hle : front.length ≤ (front ++ hunk.oldLines ++ back).length := by
    simp only [List.length_append]
    omega
  simp only [applyTo?, hlines, hbefore, hlater, hfront, hcount, hle, List.take_left,
    List.drop_left, Option.bind_eq_bind, Option.bind_some, and_self, if_true]

theorem Mark.isOld_reverse (mark : Mark) : mark.reverse.isOld = mark.isNew := by
  cases mark <;> rfl

theorem Mark.isNew_reverse (mark : Mark) : mark.reverse.isNew = mark.isOld := by
  cases mark <;> rfl

theorem Hunk.oldLines_reverse (hunk : Hunk) : hunk.reverse.oldLines = hunk.newLines := by
  simp only [oldLines, newLines, reverse, List.filter_map, List.map_map, Function.comp_def,
    Mark.isOld_reverse]

theorem Hunk.newLines_reverse (hunk : Hunk) : hunk.reverse.newLines = hunk.oldLines := by
  simp only [oldLines, newLines, reverse, List.filter_map, List.map_map, Function.comp_def,
    Mark.isNew_reverse]

end Applying

/-- Lines that all have one mark. -/
def marked (mark : Mark) (lines : List Line) : List Entry :=
  lines.map (⟨mark, ·⟩)

theorem filter_marked (side : Mark → Bool) (mark : Mark) (lines : List Line) :
    ((marked mark lines).filter fun entry => side entry.mark).map Entry.line =
      if side mark then lines else [] := by
  cases hside : side mark <;> simp [marked, List.filter_map, Function.comp_def, hside]

theorem countP_marked (mark other : Mark) (lines : List Line) :
    (marked mark lines).countP (·.mark = other) = if mark = other then lines.length else 0 := by
  by_cases hmark : mark = other <;> simp [marked, List.countP_map, Function.comp_def, hmark]

namespace Range

/-- The range of `count` lines behind `before` lines. -/
def behind (before count : Nat) : Range where
  start := if count = 0 then before else before + 1
  count := count

theorem before?_behind (before count : Nat) : (behind before count).before? = some before := by
  unfold behind before?
  by_cases hcount : count = 0
  · simp [hcount]
  · simp [hcount]

theorem ends_behind {text : String} {before count : Nat}
    (hlength : (Text.lines text.toList).length = before + count) :
    (behind before count).Ends text :=
  ⟨before, before?_behind before count, hlength.symm⟩

end Range

namespace Comparison

/-- The lines that stand before the hunk. -/
def front (comparison : Comparison) : List Line :=
  comparison.start.take (comparison.start.length - contextLimit)

def leading (comparison : Comparison) : List Line :=
  comparison.start.drop (comparison.start.length - contextLimit)

def trailing (comparison : Comparison) : List Line :=
  comparison.finish.take contextLimit

/-- The lines that stand behind the hunk. -/
def back (comparison : Comparison) : List Line :=
  comparison.finish.drop contextLimit

def changes (comparison : Comparison) : List Entry :=
  marked .removed comparison.removed ++ marked .added comparison.added

def entries (comparison : Comparison) : List Entry :=
  marked .context comparison.leading ++
    (comparison.changes ++ marked .context comparison.trailing)

def context (comparison : Comparison) : Nat :=
  comparison.leading.length + comparison.trailing.length

/-- The hunk that the spelling of a comparison says. -/
def hunk (comparison : Comparison) : Hunk where
  oldRange := Range.behind comparison.front.length
    (comparison.context + comparison.removed.length)
  newRange := Range.behind comparison.front.length
    (comparison.context + comparison.added.length)
  entries := comparison.entries

variable (comparison : Comparison)

theorem oldLines_hunk : comparison.hunk.oldLines =
    comparison.leading ++ comparison.removed ++ comparison.trailing := by
  simp only [Hunk.oldLines, hunk, entries, changes, List.filter_append, List.map_append,
    filter_marked Mark.isOld]
  simp [Mark.isOld]

theorem newLines_hunk : comparison.hunk.newLines =
    comparison.leading ++ comparison.added ++ comparison.trailing := by
  simp only [Hunk.newLines, hunk, entries, changes, List.filter_append, List.map_append,
    filter_marked Mark.isNew]
  simp [Mark.isNew]

theorem front_append : comparison.front ++ comparison.leading = comparison.start :=
  List.take_append_drop _ _

theorem trailing_append : comparison.trailing ++ comparison.back = comparison.finish :=
  List.take_append_drop _ _

theorem isWellFormed_hunk : comparison.hunk.IsWellFormed := by
  constructor
  all_goals
    simp only [hunk, Range.behind, entries, changes, context, List.countP_append, countP_marked]
    simp

theorem hunk_oldCount : comparison.hunk.oldRange.count = comparison.hunk.oldLines.length := by
  rw [oldLines_hunk]
  simp only [hunk, Range.behind, context, List.length_append]
  omega

theorem hunk_newCount : comparison.hunk.newRange.count = comparison.hunk.newLines.length := by
  rw [newLines_hunk]
  simp only [hunk, Range.behind, context, List.length_append]
  omega

/-- The two texts consist of the lines that a comparison says. -/
structure IsOf (comparison : Comparison) (old new : String) : Prop where
  old_lines : Text.lines old.toList =
    comparison.start ++ comparison.removed ++ comparison.finish
  new_lines : Text.lines new.toList =
    comparison.start ++ comparison.added ++ comparison.finish

theorem compare_isOf (old new : String) :
    (compare (Text.lines old.toList) (Text.lines new.toList)).IsOf old new where
  old_lines := (compare_append _ _).1
  new_lines := (compare_append _ _).2

section Texts

variable {comparison : Comparison} {old new : String}

theorem IsOf.old_around (hof : comparison.IsOf old new) :
    Text.lines old.toList =
      comparison.front ++ comparison.hunk.oldLines ++ comparison.back := by
  rw [hof.old_lines, oldLines_hunk, ← front_append, ← trailing_append]
  simp only [List.append_assoc]

theorem IsOf.new_around (hof : comparison.IsOf old new) :
    Text.lines new.toList =
      comparison.front ++ comparison.hunk.newLines ++ comparison.back := by
  rw [hof.new_lines, newLines_hunk, ← front_append, ← trailing_append]
  simp only [List.append_assoc]

theorem ofList_flatten_lines (text : String) :
    String.ofList (Text.lines text.toList).flatten = text := by
  rw [Text.lines_flatten, String.ofList_toList]

theorem IsOf.applyTo?_hunk (hof : comparison.IsOf old new) :
    comparison.hunk.applyTo? old = some new := by
  rw [Hunk.applyTo?_eq hof.old_around (Range.before?_behind _ _) comparison.hunk_oldCount,
    ← hof.new_around, ofList_flatten_lines]

theorem IsOf.applyTo?_reverse (hof : comparison.IsOf old new) :
    comparison.hunk.reverse.applyTo? new = some old := by
  have haround := hof.new_around
  have hcount := comparison.hunk_newCount
  rw [← Hunk.oldLines_reverse] at haround hcount
  rw [Hunk.applyTo?_eq haround (Range.before?_behind _ _) hcount, Hunk.newLines_reverse,
    ← hof.old_around, ofList_flatten_lines]

/-- Texts that differ differ in a line. -/
theorem IsOf.changes_ne_nil (hof : comparison.IsOf old new) (hne : old ≠ new) :
    comparison.changes ≠ [] := by
  intro hnil
  simp only [changes, marked, List.append_eq_nil_iff, List.map_eq_nil_iff] at hnil
  have hlines : Text.lines old.toList = Text.lines new.toList := by
    rw [hof.old_lines, hof.new_lines, hnil.1, hnil.2]
  apply hne
  rw [← ofList_flatten_lines old, hlines, ofList_flatten_lines]

end Texts

section Frame

theorem isContext_of_mem_marked {lines : List Line} :
    ∀ entry ∈ marked .context lines, decide (entry.mark = .context) = true := by
  intro entry hentry
  obtain ⟨line, _, rfl⟩ := List.mem_map.1 hentry
  rfl

theorem not_isContext_of_mem_changes {comparison : Comparison} :
    ∀ entry ∈ comparison.changes, decide (entry.mark = .context) = false := by
  intro entry hentry
  rcases List.mem_append.1 hentry with hremoved | hadded
  · obtain ⟨line, _, rfl⟩ := List.mem_map.1 hremoved
    rfl
  · obtain ⟨line, _, rfl⟩ := List.mem_map.1 hadded
    rfl

theorem takeWhile_frame {front middle back : List Entry} {p : Entry → Bool}
    (hfront : ∀ entry ∈ front, p entry = true) (hmiddle : ∀ entry ∈ middle, p entry = false)
    (hne : middle ≠ []) : (front ++ (middle ++ back)).takeWhile p = front := by
  cases middle with
  | nil => exact absurd rfl hne
  | cons entry others =>
      have hentry : p entry = false := hmiddle entry List.mem_cons_self
      rw [List.takeWhile_append_of_pos hfront, List.cons_append, List.takeWhile_cons]
      simp [hentry]

variable {comparison : Comparison} {old new : String}

theorem leading_hunk (hchanges : comparison.changes ≠ []) :
    comparison.hunk.leading = marked .context comparison.leading :=
  takeWhile_frame isContext_of_mem_marked not_isContext_of_mem_changes hchanges

theorem trailing_hunk (hchanges : comparison.changes ≠ []) :
    comparison.hunk.trailing = (marked .context comparison.trailing).reverse := by
  have hreverse : comparison.entries.reverse =
      (marked .context comparison.trailing).reverse ++
        (comparison.changes.reverse ++ (marked .context comparison.leading).reverse) := by
    simp only [entries, List.reverse_append, List.append_assoc]
  change comparison.entries.reverse.takeWhile _ = _
  rw [hreverse]
  apply takeWhile_frame
  · intro entry hentry
    exact isContext_of_mem_marked entry (List.mem_reverse.1 hentry)
  · intro entry hentry
    exact not_isContext_of_mem_changes entry (List.mem_reverse.1 hentry)
  · exact fun hnil => hchanges (List.reverse_eq_nil_iff.1 hnil)

theorem length_leading_hunk (hchanges : comparison.changes ≠ []) :
    comparison.hunk.leading.length = min contextLimit comparison.start.length := by
  rw [leading_hunk hchanges, marked, List.length_map, leading, List.length_drop]
  omega

theorem length_trailing_hunk (hchanges : comparison.changes ≠ []) :
    comparison.hunk.trailing.length = min contextLimit comparison.finish.length := by
  rw [trailing_hunk hchanges, List.length_reverse, marked, List.length_map, trailing,
    List.length_take]

theorem IsOf.isFramed_hunk (hof : comparison.IsOf old new) (hne : old ≠ new) :
    comparison.hunk.IsFramed old new := by
  have hchanges := hof.changes_ne_nil hne
  have hleading := length_leading_hunk hchanges
  have htrailing := length_trailing_hunk hchanges
  constructor
  case changes =>
    obtain ⟨entry, hentry⟩ := List.exists_mem_of_ne_nil _ hchanges
    refine ⟨entry, List.mem_append_right _ (List.mem_append_left _ hentry), ?_⟩
    exact of_decide_eq_false (not_isContext_of_mem_changes entry hentry)
  case outside =>
    have hcount : comparison.hunk.entries.countP (·.mark = .context) =
        comparison.leading.length + comparison.trailing.length := by
      simp only [hunk, entries, changes, List.countP_append, countP_marked]
      simp
    rw [hcount, leading_hunk hchanges, trailing_hunk hchanges, List.length_reverse, marked,
      marked, List.length_map, List.length_map]
  case leading_le =>
    rw [hleading]
    exact Nat.min_le_left ..
  case trailing_le =>
    rw [htrailing]
    exact Nat.min_le_left ..
  case begins =>
    intro hshort
    have hstart : comparison.front.length = 0 := by
      rw [hleading, contextLimit] at hshort
      rw [front, List.length_take, contextLimit]
      omega
    have hbegins : ∀ count, (Range.behind comparison.front.length count).Begins := by
      intro count
      rw [Range.Begins, Range.before?_behind, hstart]
    exact ⟨hbegins _, hbegins _⟩
  case ends =>
    intro hshort
    -- Where less than the limit is shown, nothing is left behind the hunk.
    have hback : comparison.back.length = 0 := by
      rw [htrailing, contextLimit] at hshort
      rw [back, List.length_drop, contextLimit]
      omega
    constructor
    · apply Range.ends_behind
      rw [hof.old_around, oldLines_hunk]
      simp only [List.length_append, context]
      omega
    · apply Range.ends_behind
      rw [hof.new_around, newLines_hunk]
      simp only [List.length_append, context]
      omega

end Frame

end Comparison

end Patch

end StubSync
