/-
The one line that an edit writes, and the lines that it leaves as they are.

The lines before the first table header are looked through for the first one that
assigns a value to the key.  Its value is replaced, or a line is added behind the
first one that assigns a version.
-/
import StubSync.Metadata.Edit
import StubSync.Proofs.Metadata.Fields
import StubSync.Proofs.Text.Lines

namespace StubSync

namespace Metadata

section Places

variable {key value added line : List Char} {head edited lines : List (List Char)}

def assigns (key line : List Char) : Bool :=
  (Assignment.ofLine? key line).isSome

/-- The lines before the first one that assigns a value to the key. -/
def linesBefore (key : List Char) (lines : List (List Char)) : List (List Char) :=
  lines.takeWhile fun line => !assigns key line

/-- The key whose value an action changes. -/
def changedKey : Action → List Char
  | .markObsolete _ => obsoleteKey
  | .update .. | .rest _ | .review _ => versionKey

/-- The value that an action gives its key. -/
def writtenValue (package : Package) : Action → List Char
  | .update _ target => (package.minVersion.bumpedTo target).toList
  | .markObsolete since => (toString since).toList
  | .rest _ | .review _ => []

/-- The lines that stand before what an edit writes: before a line whose value is
replaced, or up to the one that a new line is added to. -/
def keptLines (action : Action) (head : List (List Char)) : List (List Char) :=
  if head.any (assigns (changedKey action)) then linesBefore (changedKey action) head
  else linesBefore versionKey head ++ (head.drop (linesBefore versionKey head).length).take 1

def headLines (source : String) : List (List Char) :=
  (Text.lines source.toList).takeWhile fun line => !isTableHeader line

/-- The text before the place of an edit. -/
def textBefore (package : Package) (action : Action) : String :=
  String.ofList (keptLines action (headLines package.metadataSource)).flatten

theorem linesBefore_cons (key line : List Char) (lines : List (List Char)) :
    linesBefore key (line :: lines) =
      if assigns key line then [] else line :: linesBefore key lines := by
  rw [linesBefore, List.takeWhile_cons]
  cases assigns key line <;> rfl

/-- A value is replaced in the first line that assigns one to the key. -/
theorem replaceValue?_eq_some (hreplace : replaceValue? key value head = some edited) :
    head.any (assigns key) = true ∧
      ∃ line after assignment, head = linesBefore key head ++ line :: after ∧
        Assignment.ofLine? key line = some assignment ∧
        edited = linesBefore key head ++ assignment.withValue value :: after := by
  induction head generalizing edited with
  | nil => cases hreplace
  | cons line head ih =>
      rw [replaceValue?] at hreplace
      rw [List.any_cons, linesBefore_cons]
      cases hline : Assignment.ofLine? key line with
      | some assignment =>
          rw [hline] at hreplace
          cases hreplace
          have hassigns : assigns key line = true := by
            rw [assigns, hline]
            rfl
          rw [hassigns]
          exact ⟨rfl, line, head, assignment, rfl, hline, rfl⟩
      | none =>
          rw [hline] at hreplace
          obtain ⟨others, hothers, rfl⟩ := Option.map_eq_some_iff.1 hreplace
          obtain ⟨hany, found, after, assignment, hhead, hfound, rfl⟩ := ih hothers
          have hassigns : assigns key line = false := by
            rw [assigns, hline]
            rfl
          rw [hassigns, hany]
          refine ⟨rfl, found, after, assignment, ?_, hfound, rfl⟩
          exact congrArg (line :: ·) hhead

theorem replaceValue?_eq_none (hreplace : replaceValue? key value head = none) :
    head.any (assigns key) = false := by
  induction head with
  | nil => rfl
  | cons line head ih =>
      rw [replaceValue?] at hreplace
      cases hline : Assignment.ofLine? key line with
      | some assignment =>
          rw [hline] at hreplace
          cases hreplace
      | none =>
          rw [hline] at hreplace
          rw [List.any_cons, ih (Option.map_eq_none_iff.1 hreplace), assigns, hline]
          rfl

/-- A line is added to the first line that assigns a value to the key. -/
theorem insertAfter?_eq_some (hinsert : insertAfter? key added head = some edited) :
    ∃ line after, head = linesBefore key head ++ line :: after ∧ assigns key line = true ∧
      edited = linesBefore key head ++ ended line :: (added ++ ['\n']) :: after := by
  induction head generalizing edited with
  | nil => cases hinsert
  | cons line head ih =>
      rw [insertAfter?] at hinsert
      rw [linesBefore_cons]
      cases hline : Assignment.ofLine? key line with
      | some assignment =>
          rw [hline] at hinsert
          cases hinsert
          have hassigns : assigns key line = true := by
            rw [assigns, hline]
            rfl
          rw [hassigns, if_pos rfl]
          exact ⟨line, head, rfl, hassigns, rfl⟩
      | none =>
          rw [hline] at hinsert
          obtain ⟨others, hothers, rfl⟩ := Option.map_eq_some_iff.1 hinsert
          obtain ⟨found, after, hhead, hfound, rfl⟩ := ih hothers
          have hassigns : assigns key line = false := by
            rw [assigns, hline]
            rfl
          rw [hassigns]
          refine ⟨found, after, ?_, hfound, rfl⟩
          exact congrArg (line :: ·) hhead

theorem ended_of_isFullLine (hline : Text.IsFullLine line) : ended line = line := by
  obtain ⟨content, _, rfl⟩ := hline
  rw [ended, List.getLast?_concat, if_pos rfl]

theorem ended_of_isOpenLine (hline : Text.IsOpenLine line) : ended line = line ++ ['\n'] := by
  rw [ended, if_neg]
  intro hlast
  exact hline.2 (List.mem_of_getLast? hlast)

end Places

section Edits

variable {package : Package} {action : Action} {out : String}

/-- How an edit changes the text: it replaces the value of a line, or it adds a
line. -/
inductive Edits (package : Package) (action : Action) (out : String) : Prop where
  | replaced {before after : List (List Char)} {line : List Char} {assignment : Assignment}
      (lines : Text.lines package.metadataSource.toList = before ++ line :: after)
      (headless : ∀ other ∈ before, isTableHeader other = false)
      (assigned : Assignment.ofLine? (changedKey action) line = some assignment)
      (textBefore : textBefore package action = String.ofList before.flatten)
      (text : out = String.ofList (before.flatten ++
        (assignment.withValue (writtenValue package action) ++ after.flatten)))
  | added {before after : List (List Char)} {line : List Char}
      (lines : Text.lines package.metadataSource.toList = before ++ line :: after)
      (headless : ∀ other ∈ before ++ [line], isTableHeader other = false)
      (textBefore : textBefore package action = String.ofList (before.flatten ++ line))
      (text : out = String.ofList (before.flatten ++ (ended line ++
        (changedKey action ++ " = \"".toList ++ writtenValue package action ++ ['"'] ++
          '\n' :: after.flatten))))

/-- The lines from the first table header on, which no edit touches. -/
def tailLines (source : String) : List (List Char) :=
  (Text.lines source.toList).dropWhile fun line => !isTableHeader line

theorem headLines_append_tailLines (source : String) :
    headLines source ++ tailLines source = Text.lines source.toList :=
  List.takeWhile_append_dropWhile

theorem isTableHeader_of_mem_headLines (source : String) :
    ∀ line ∈ headLines source, isTableHeader line = false := by
  intro line hline
  simpa using List.mem_takeWhile_imp hline

theorem lines_eq {before after : List (List Char)} {line : List Char} {source : String}
    (hhead : headLines source = before ++ line :: after) :
    Text.lines source.toList = before ++ line :: (after ++ tailLines source) := by
  rw [← headLines_append_tailLines, hhead]
  simp

theorem edits_of_replaceValue? {head : List (List Char)}
    (hreplace : replaceValue? (changedKey action) (writtenValue package action)
      (headLines package.metadataSource) = some head) :
    Edits package action
      (String.ofList (head.flatten ++ (tailLines package.metadataSource).flatten)) := by
  obtain ⟨hany, line, after, assignment, hhead, hline, rfl⟩ := replaceValue?_eq_some hreplace
  have hkept : keptLines action (headLines package.metadataSource) =
      linesBefore (changedKey action) (headLines package.metadataSource) := if_pos hany
  have hheader := isTableHeader_of_mem_headLines package.metadataSource
  generalize linesBefore (changedKey action) (headLines package.metadataSource) = before
    at hhead hkept
  refine .replaced (lines_eq hhead) ?_ hline ?_ ?_
  · intro other hother
    apply hheader
    rw [hhead]
    exact List.mem_append_left _ hother
  · rw [textBefore, hkept]
  · simp

theorem edits_of_insertAfter? {head : List (List Char)}
    (hreplace : replaceValue? (changedKey action) (writtenValue package action)
      (headLines package.metadataSource) = none)
    (hinsert : insertAfter? versionKey
      (changedKey action ++ " = \"".toList ++ writtenValue package action ++ ['"'])
      (headLines package.metadataSource) = some head) :
    Edits package action
      (String.ofList (head.flatten ++ (tailLines package.metadataSource).flatten)) := by
  obtain ⟨line, after, hhead, _, rfl⟩ := insertAfter?_eq_some hinsert
  have hany := replaceValue?_eq_none hreplace
  have hkept : keptLines action (headLines package.metadataSource) =
      linesBefore versionKey (headLines package.metadataSource) ++
        ((headLines package.metadataSource).drop
          (linesBefore versionKey (headLines package.metadataSource)).length).take 1 := by
    rw [keptLines, hany]
    rfl
  have hheader := isTableHeader_of_mem_headLines package.metadataSource
  generalize linesBefore versionKey (headLines package.metadataSource) = before at hhead hkept
  rw [hhead, List.drop_left] at hkept
  refine .added (lines_eq hhead) ?_ ?_ ?_
  · intro other hother
    apply hheader
    rw [hhead]
    rcases List.mem_append.1 hother with hmem | hmem
    · exact List.mem_append_left _ hmem
    · rw [List.mem_singleton.1 hmem]
      exact List.mem_append_right _ List.mem_cons_self
  · rw [textBefore, hhead, hkept]
    simp
  · simp

/-- Before the table headers an edit replaces the value of the key, or it adds a
line where no line has the key. -/
theorem editHead_cases {lines head : List (List Char)}
    (hhead : editHead package action lines = .ok head) :
    replaceValue? (changedKey action) (writtenValue package action) lines = some head ∨
      (∃ since, action = .markObsolete since) ∧
        replaceValue? (changedKey action) (writtenValue package action) lines = none ∧
        insertAfter? versionKey
          (changedKey action ++ " = \"".toList ++ writtenValue package action ++ ['"']) lines =
          some head := by
  cases action with
  | update current target =>
      rw [editHead] at hhead
      split at hhead
      · rename_i found hfound
        cases hhead
        exact Or.inl hfound
      · cases hhead
  | markObsolete since =>
      rw [editHead] at hhead
      dsimp only at hhead
      split at hhead
      · rename_i found hfound
        cases hhead
        exact Or.inl hfound
      · rename_i hnone
        split at hhead
        · rename_i found hfound
          cases hhead
          exact Or.inr ⟨⟨since, rfl⟩, hnone, hfound⟩
        · cases hhead
  | rest reason => cases hhead
  | review reason => cases hhead

/-- The text of an edit is what became of the lines before the table headers, and
the other lines; it was read again. -/
theorem exists_head_of_edit (hedit : edit package action = .ok out) :
    ∃ head, editHead package action (headLines package.metadataSource) = .ok head ∧
      out = String.ofList (head.flatten ++ (tailLines package.metadataSource).flatten) ∧
      ∃ edited, parse package.name package.metadataPath out = .ok edited ∧
        isCarriedOut package action edited = true := by
  obtain ⟨head, hhead, hedit⟩ := Toml.exists_of_bind_eq_ok hedit
  obtain ⟨edited, hedited, hedit⟩ := Toml.exists_of_bind_eq_ok hedit
  have hhead := exists_of_mapError_eq_ok hhead
  split at hedit
  · rename_i hcarried
    cases hedit
    exact ⟨head, hhead, rfl, edited, hedited, hcarried⟩
  · cases hedit

theorem edits_of_edit (hedit : edit package action = .ok out) :
    Edits package action out ∧
      ∃ edited, parse package.name package.metadataPath out = .ok edited ∧
        isCarriedOut package action edited = true := by
  obtain ⟨head, hhead, rfl, hedited⟩ := exists_head_of_edit hedit
  refine ⟨?_, hedited⟩
  rcases editHead_cases hhead with hreplace | ⟨_, hnone, hinsert⟩
  · exact edits_of_replaceValue? hreplace
  · exact edits_of_insertAfter? hnone hinsert

end Edits

end Metadata

end StubSync
