/-
Many patches in one text, and their reader.

The reader goes from line to line.  Outside of patches it passes over whatever
does not name a file; within a hunk the lengths of its header alone tell where
it ends, whatever its lines look like.
-/
import StubSync.Proofs.Patch.RoundTrip

namespace StubSync

namespace Patch

/-- The patch of one file among others. -/
structure Piece where
  oldPath : String
  newPath : String
  hunks : List Hunk
  /-- The lines that the patch takes. -/
  lines : List Line
deriving Repr, DecidableEq

namespace Piece

def text (piece : Piece) : String :=
  String.ofList piece.lines.flatten

def addLines (piece : Piece) (lines : List Line) : Piece :=
  { piece with lines := piece.lines ++ lines }

def addHunk (piece : Piece) (hunk : Hunk) : Piece :=
  { piece with hunks := piece.hunks ++ [hunk] }

/-- Hunks tell their places in the old text, so the last one is applied
first. -/
def applyTo? (piece : Piece) (text : String) : Option String :=
  piece.hunks.foldrM Hunk.applyTo? text

end Piece

/-- The last line of the hunk has no line feed. -/
def Hunk.cutLast (hunk : Hunk) : Hunk :=
  match hunk.entries.getLast? with
  | none => hunk
  | some last =>
      { hunk with
        entries := hunk.entries.dropLast ++ [{ last with line := last.line.dropLast }] }

def Hunk.add (hunk : Hunk) (entry : Entry) : Hunk :=
  { hunk with entries := hunk.entries ++ [entry] }

/-- Where a reader stands between two lines; in a hunk, with the lengths that
are left of both sides. -/
inductive Place where
  | outside
  | behindOld (path : String) (line : Line)
  | behindNew (piece : Piece)
  | inside (piece : Piece) (hunk : Hunk) (oldLeft newLeft : Nat)
deriving Repr, DecidableEq

/-- A text on its way, with the patches that are complete. -/
structure Reading where
  done : List Piece := []
  place : Place := .outside
deriving Repr, DecidableEq

/-- The next line of a hunk, and what is left of both sides behind it. -/
def takeLine? (oldLeft newLeft : Nat) (line : Line) : Option (Entry × Nat × Nat) := do
  let entry ← readEntry? line
  let left ← entry.mark.takeFrom? oldLeft newLeft
  return (entry, left)

namespace Reading

/-- All patches so far: the last one is complete if its hunk is. -/
def pieces (reading : Reading) : List Piece :=
  match reading.place with
  | .inside piece hunk 0 0 => reading.done ++ [piece.addHunk hunk]
  | _ => reading.done

/-- A line outside of hunks, which may name the old file of a patch. -/
def start (done : List Piece) (line : Line) : Reading :=
  match readPath? "--- a/".toList line with
  | some path => ⟨done, .behindOld path line⟩
  | none => ⟨done, .outside⟩

/-- A line that heads a hunk. -/
def enter (done : List Piece) (piece : Piece) (line : Line) (ranges : Range × Range) :
    Reading :=
  ⟨done, .inside (piece.addLines [line]) ⟨ranges.1, ranges.2, []⟩ ranges.1.count ranges.2.count⟩

def step (reading : Reading) (line : Line) : Reading :=
  match reading.place with
  | .outside => start reading.done line
  | .behindOld oldPath oldLine =>
      match readPath? "+++ b/".toList line with
      | some newPath => ⟨reading.done, .behindNew ⟨oldPath, newPath, [], [oldLine, line]⟩⟩
      | none => start reading.done line
  | .behindNew piece =>
      match readRanges? line with
      | some ranges => enter reading.done piece line ranges
      | none => start reading.done line
  | .inside piece hunk oldLeft newLeft =>
      if line = note then
        ⟨reading.done, .inside (piece.addLines [line]) hunk.cutLast oldLeft newLeft⟩
      else
        match takeLine? oldLeft newLeft line with
        | some (entry, left) =>
            ⟨reading.done, .inside (piece.addLines [line]) (hunk.add entry) left.1 left.2⟩
        | none =>
            if oldLeft = 0 ∧ newLeft = 0 then
              match readRanges? line with
              | some ranges => enter reading.done (piece.addHunk hunk) line ranges
              | none => start reading.pieces line
            else start reading.done line

end Reading

/-- The patches of a text, in order. -/
def readPieces (text : String) : List Piece :=
  ((Text.lines text.toList).foldl Reading.step {}).pieces

section Steps

variable {reading : Reading} {line : Line}

/-- No patch is on its way: none has begun, or its hunk is complete. -/
def Reading.Rests (reading : Reading) : Prop :=
  reading.place = .outside ∨ ∃ piece hunk, reading.place = .inside piece hunk 0 0

theorem takeLine?_zero (line : Line) : takeLine? 0 0 line = none := by
  unfold takeLine?
  cases readEntry? line with
  | none => rfl
  | some entry =>
      obtain ⟨mark, _⟩ := entry
      cases mark <;> rfl

theorem readRanges?_eq_none {c : Char} {rest : Line} (hc : c ≠ '@') :
    readRanges? (c :: rest) = none := by
  have hafter : Text.after? "@@ -".toList (c :: rest) = none := if_neg (Ne.symm hc)
  rw [readRanges?, hafter]
  rfl

/-- A line that neither belongs to a hunk nor heads one completes the patch
before it. -/
theorem Reading.Rests.step_eq {c : Char} {rest : Line} (hrests : reading.Rests)
    (hnote : c ≠ '\\') (hranges : c ≠ '@') :
    reading.step (c :: rest) = start reading.pieces (c :: rest) := by
  have hline : c :: rest ≠ note := fun heq => hnote (List.cons.inj heq).1
  obtain ⟨done, place⟩ := reading
  rcases hrests with rfl | ⟨piece, hunk, rfl⟩
  · rfl
  · simp only [step, if_neg hline, takeLine?_zero, and_self, if_true,
      readRanges?_eq_none hranges]

theorem Reading.Rests.step_oldPath (hrests : reading.Rests) (path : String) :
    reading.step (pathLine "--- a/".toList path) =
      ⟨reading.pieces, .behindOld path (pathLine "--- a/".toList path)⟩ := by
  have hstep : reading.step (pathLine "--- a/".toList path) =
      start reading.pieces (pathLine "--- a/".toList path) :=
    hrests.step_eq (by decide) (by decide)
  rw [hstep, start, readPath?_pathLine]

end Steps

section Entries

variable {done : List Piece} {piece : Piece} {hunk : Hunk}

/-- The hunk with more lines. -/
def Hunk.extend (hunk : Hunk) (entries : List Entry) : Hunk :=
  { hunk with entries := hunk.entries ++ entries }

theorem Hunk.cutLast_add (hunk : Hunk) (mark : Mark) (line : Line) :
    (hunk.add ⟨mark, line ++ ['\n']⟩).cutLast = hunk.add ⟨mark, line⟩ := by
  simp [add, cutLast]

theorem Entry.spelled_append_ne_note (entry : Entry) (rest : Line) :
    entry.spelled ++ rest ≠ note := by
  intro heq
  have hmark : entry.mark.char = '\\' := (List.cons.inj heq).1
  cases hentry : entry.mark <;> rw [hentry] at hmark <;> cases hmark

/-- A line of a hunk is taken by its mark. -/
theorem step_spelled {entry : Entry} {old new : Nat} {left : Nat × Nat}
    (htake : entry.mark.takeFrom? old new = some left) :
    Reading.step ⟨done, .inside piece hunk old new⟩ entry.spelled =
      ⟨done, .inside (piece.addLines [entry.spelled]) (hunk.add entry) left.1 left.2⟩ := by
  have hnote : entry.spelled ≠ note := by
    have happend := entry.spelled_append_ne_note []
    rwa [List.append_nil] at happend
  have hnext : takeLine? old new entry.spelled = some (entry, left) := by
    simp only [takeLine?, readEntry?_spelled, htake, Option.bind_eq_bind, Option.bind_some]
    rfl
  simp only [Reading.step, if_neg hnote, hnext]

theorem step_note {old new : Nat} :
    Reading.step ⟨done, .inside piece hunk old new⟩ note =
      ⟨done, .inside (piece.addLines [note]) hunk.cutLast old new⟩ :=
  rfl

/-- A line of a text is taken as it is, with its line feed or cut off. -/
theorem foldl_written {entry : Entry} {old new : Nat} {left : Nat × Nat}
    (htake : entry.mark.takeFrom? old new = some left) :
    entry.written.foldl Reading.step ⟨done, .inside piece hunk old new⟩ =
      ⟨done, .inside (piece.addLines entry.written) (hunk.add entry) left.1 left.2⟩ := by
  obtain ⟨mark, line⟩ := entry
  unfold Entry.written
  split
  · exact step_spelled htake
  · -- The line is first taken with the line feed in front of the note.
    let fed : Entry := ⟨mark, line ++ ['\n']⟩
    have hfed : Reading.step ⟨done, .inside piece hunk old new⟩ fed.spelled =
        ⟨done, .inside (piece.addLines [fed.spelled]) (hunk.add fed) left.1 left.2⟩ :=
      step_spelled htake
    have hspelled : (⟨mark, line⟩ : Entry).spelled ++ ['\n'] = fed.spelled := rfl
    rw [List.foldl_cons, List.foldl_cons, List.foldl_nil, hspelled, hfed, step_note,
      Hunk.cutLast_add]
    simp [Piece.addLines]

/-- The lengths of the header tell which lines belong to a hunk. -/
theorem foldl_entries (done : List Piece) (piece : Piece) (hunk : Hunk) (entries : List Entry) :
    (entries.flatMap Entry.written).foldl Reading.step
        ⟨done, .inside piece hunk (entries.countP (·.mark.isOld))
          (entries.countP (·.mark.isNew))⟩ =
      ⟨done, .inside (piece.addLines (entries.flatMap Entry.written)) (hunk.extend entries)
        0 0⟩ := by
  induction entries generalizing piece hunk with
  | nil => simp [Piece.addLines, Hunk.extend]
  | cons entry others ih =>
      rw [List.flatMap_cons, List.foldl_append, foldl_written (takeFrom?_countP entry others), ih]
      simp [Piece.addLines, Hunk.extend, Hunk.add]

end Entries

/-- A text at a path and the text that takes its place. -/
structure Change where
  path : String
  old : String
  new : String
deriving Repr, DecidableEq

namespace Change

def diff (change : Change) : String :=
  unified change.path change.old change.new

def comparison (change : Change) : Comparison :=
  compare (Text.lines change.old.toList) (Text.lines change.new.toList)

/-- The texts differ, and the path has no line feed that would break the lines
that name it. -/
structure IsReal (change : Change) : Prop where
  path : '\n' ∉ change.path.toList
  differ : change.old ≠ change.new

/-- The patch that the diff of a change is read as. -/
def piece (change : Change) : Piece where
  oldPath := change.path
  newPath := change.path
  hunks := [change.comparison.hunk]
  lines := Text.lines change.diff.toList

end Change

section Whole

open Text (IsFullLine)

variable {change : Change} {changes : List Change} {reading : Reading}

theorem Change.IsReal.lines_diff (hreal : change.IsReal) :
    Text.lines change.diff.toList =
      pathLine "--- a/".toList change.path :: pathLine "+++ b/".toList change.path ::
        change.comparison.rangesLine :: change.comparison.entries.flatMap Entry.written :=
  lines_unified hreal.path hreal.differ rfl

/-- A diff ends with a line end, also behind a note. -/
theorem Change.IsReal.isFullLine_diff (hreal : change.IsReal) :
    ∀ line ∈ Text.lines change.diff.toList, IsFullLine line := by
  have hof := Comparison.compare_isOf change.old change.new
  rw [hreal.lines_diff]
  refine List.forall_mem_cons.2 ⟨isFullLine_pathLine (by decide) hreal.path,
    List.forall_mem_cons.2 ⟨isFullLine_pathLine (by decide) hreal.path,
      List.forall_mem_cons.2 ⟨isFullLine_rangesLine .., ?_⟩⟩⟩
  intro line hline
  obtain ⟨entry, hentry, hwritten⟩ := List.mem_flatMap.1 hline
  exact isFullLine_written (hof.isLine_entries entry hentry) line hwritten

theorem Change.IsReal.lines_diff_append (hreal : change.IsReal) (rest : List Char) :
    Text.lines (change.diff.toList ++ rest) =
      Text.lines change.diff.toList ++ Text.lines rest := by
  have happend := Text.lines_flatten_append hreal.isFullLine_diff rest
  rwa [Text.lines_flatten] at happend

theorem Change.IsReal.feed_suffix_diff (hreal : change.IsReal) :
    ['\n'] <:+ change.diff.toList := by
  have hlines := hreal.lines_diff
  have hne : Text.lines change.diff.toList ≠ [] := by
    rw [hlines]
    exact List.cons_ne_nil _ _
  obtain ⟨content, _, hlast⟩ := hreal.isFullLine_diff _ (List.getLast_mem hne)
  refine ⟨(Text.lines change.diff.toList).dropLast.flatten ++ content, ?_⟩
  rw [List.append_assoc, ← hlast, ← List.flatten_concat, List.dropLast_concat_getLast hne,
    Text.lines_flatten]

theorem text_piece (change : Change) : change.piece.text = change.diff :=
  Comparison.ofList_flatten_lines change.diff

theorem applyTo?_piece (change : Change) : change.piece.applyTo? change.old = some change.new := by
  have happlied := (Comparison.compare_isOf change.old change.new).applyTo?_hunk
  simpa [Piece.applyTo?, Change.piece, Change.comparison] using happlied

/-- From wherever a patch may begin, a diff is read up to its last line. -/
theorem foldl_diff (hrests : reading.Rests) (hreal : change.IsReal) :
    ∃ next, (Text.lines change.diff.toList).foldl Reading.step reading = next ∧ next.Rests ∧
      next.pieces = reading.pieces ++ [change.piece] := by
  have hentries := foldl_entries reading.pieces
    ⟨change.path, change.path, [], [pathLine "--- a/".toList change.path,
      pathLine "+++ b/".toList change.path, change.comparison.rangesLine]⟩
    ⟨change.comparison.hunk.oldRange, change.comparison.hunk.newRange, []⟩
    change.comparison.entries
  rw [← oldCount_hunk, ← newCount_hunk] at hentries
  refine ⟨⟨reading.pieces, .inside
    ⟨change.path, change.path, [], Text.lines change.diff.toList⟩ change.comparison.hunk 0 0⟩,
    ?_, Or.inr ⟨_, _, rfl⟩, rfl⟩
  rw [hreal.lines_diff, List.foldl_cons, hrests.step_oldPath, List.foldl_cons, List.foldl_cons]
  simp only [Reading.step, readPath?_pathLine, readRanges?_hunk, Reading.enter, Piece.addLines,
    List.cons_append, List.nil_append, Hunk.extend] at hentries ⊢
  exact hentries

/-- Diffs in a row are told apart, and what follows them is left. -/
theorem foldl_diffs (hrests : reading.Rests) (hreal : ∀ change ∈ changes, change.IsReal)
    (rest : List Char) :
    ∃ next, (Text.lines ((changes.map fun change => change.diff.toList).flatten ++ rest)).foldl
          Reading.step reading = (Text.lines rest).foldl Reading.step next ∧
      next.Rests ∧ next.pieces = reading.pieces ++ changes.map Change.piece := by
  induction changes generalizing reading with
  | nil => exact ⟨reading, rfl, hrests, (List.append_nil _).symm⟩
  | cons change others ih =>
      rw [List.forall_mem_cons] at hreal
      obtain ⟨middle, hmiddle, hmiddleRests, hpieces⟩ := foldl_diff hrests hreal.1
      obtain ⟨next, hnext, hnextRests, hall⟩ := ih hmiddleRests hreal.2
      refine ⟨next, ?_, hnextRests, ?_⟩
      · rw [List.map_cons, List.flatten_cons, List.append_assoc, hreal.1.lines_diff_append,
          List.foldl_append, hmiddle, hnext]
      · rw [hall, hpieces, List.map_cons, List.append_assoc, List.singleton_append]

/-- A line that names no file is passed over. -/
theorem pieces_step_of_rests {c : Char} {line : Line} (hrests : reading.Rests)
    (hnote : c ≠ '\\') (hranges : c ≠ '@') (hpath : c ≠ '-') :
    (reading.step (c :: line)).pieces = reading.pieces := by
  have hafter : Text.after? "--- a/".toList (c :: line) = none := if_neg (Ne.symm hpath)
  rw [hrests.step_eq hnote hranges, Reading.start, readPath?, hafter]
  rfl

/-- Diffs in a row with one more line behind them, which names no file, are read
as the patches of their changes. -/
theorem readPieces_diffs {text : String} {c : Char} {line : List Char}
    (hreal : ∀ change ∈ changes, change.IsReal) (hline : IsFullLine (c :: line))
    (hnote : c ≠ '\\') (hranges : c ≠ '@') (hpath : c ≠ '-')
    (htext : text.toList =
      (changes.map fun change => change.diff.toList).flatten ++ (c :: line)) :
    readPieces text = changes.map Change.piece := by
  have hlines : Text.lines (c :: line) = [c :: line] := by
    have happend := Text.lines_append hline []
    rwa [List.append_nil] at happend
  have hstart : Reading.Rests {} := Or.inl rfl
  obtain ⟨next, hnext, hrests, hpieces⟩ := foldl_diffs hstart hreal (c :: line)
  rw [readPieces, htext, hnext, hlines, List.foldl_cons, List.foldl_nil,
    pieces_step_of_rests hrests hnote hranges hpath, hpieces]
  rfl

end Whole

end Patch

end StubSync
