/-
Lines that give a key a value in quotes, and the texts that they hold.
-/
import StubSync.Metadata.Edit
import StubSync.Proofs.Text.Lines
import StubSync.Proofs.Text.Pieces
import StubSync.Proofs.Toml.Document

namespace StubSync

namespace Metadata

open Toml (IsKeyLead isBlankChar isPlainChar text? endsLine)

section Assignments

variable {key line : List Char} {assignment : Assignment}

/-- What a line holds that assigns a value to the key.  The mark that closes the
value may be another than the one that opens it. -/
structure Assignment.IsAt (assignment : Assignment) (key line : List Char) : Prop where
  lead : IsKeyLead key assignment.lead
  quote : assignment.quote = '"' ∨ assignment.quote = '\''
  value : ∀ c ∈ assignment.value, isQuote c = false ∧ c ≠ '\n'
  line : ∃ close, isQuote close = true ∧
    line = assignment.lead ++ assignment.quote :: assignment.value ++ close :: assignment.trail

theorem isQuote_iff {c : Char} : isQuote c = true ↔ c = '"' ∨ c = '\'' := by
  simp [isQuote]

theorem dropWhile_isLineBlank (text : List Char) :
    ∃ blanks, text = blanks ++ text.dropWhile isLineBlank ∧
      ∀ c ∈ blanks, isBlankChar c = true :=
  ⟨text.takeWhile isLineBlank, List.takeWhile_append_dropWhile.symm,
    fun _ hc => List.mem_takeWhile_imp hc⟩

theorem Assignment.isAt_of_ofLine? (hline : Assignment.ofLine? key line = some assignment) :
    assignment.IsAt key line := by
  obtain ⟨named, hnamed, hline⟩ := Option.bind_eq_some_iff.1 hline
  obtain ⟨signed, hsigned, hline⟩ := Option.bind_eq_some_iff.1 hline
  obtain ⟨before, hbefore, hblanks⟩ := dropWhile_isLineBlank line
  obtain ⟨between, hbetween, hblanks'⟩ := dropWhile_isLineBlank named
  obtain ⟨behind, hbehind, hblanks''⟩ := dropWhile_isLineBlank signed
  rw [Text.after?_eq_some_iff] at hnamed hsigned
  generalize hstart : signed.dropWhile isLineBlank = start at hline hbehind
  have hwhole : line = before ++ key ++ between ++ '=' :: behind ++ start := by
    rw [hbefore, hnamed, hbetween, hsigned, hbehind]
    simp
  have hlead : line.take (line.length - start.length) =
      before ++ key ++ between ++ '=' :: behind := by
    rw [hwhole, List.length_append, Nat.add_sub_cancel, List.take_left]
  dsimp only at hline
  rw [hlead] at hline
  match start with
  | [] => cases hline
  | quote :: rest =>
      by_cases hquote : isQuote quote = true
      · simp only [hquote, Bool.not_true, Bool.false_eq_true, if_false] at hline
        have hvalue := List.takeWhile_append_dropWhile
          (p := fun c => !isQuote c && c != '\n') (l := rest)
        match hclose : rest.dropWhile fun c => !isQuote c && c != '\n' with
        | [] => simp [hclose] at hline
        | close :: trail =>
            simp only [hclose] at hline
            split at hline
            · rename_i hclosing
              cases hline
              refine ⟨⟨before, between, behind, rfl, hblanks, hblanks', hblanks''⟩,
                isQuote_iff.1 hquote, ?_, close, hclosing, ?_⟩
              · intro c hc
                have hplain := List.mem_takeWhile_imp hc
                simpa using hplain
              · rw [hclose] at hvalue
                simp only [hvalue, hwhole, List.append_assoc, List.cons_append]
            · cases hline
      · simp [hquote] at hline

/-- A run ends at the first character that does not belong to it. -/
theorem span_append {belongs : Char → Bool} {run : List Char} {c : Char}
    (hrun : ∀ c ∈ run, belongs c = true) (hc : belongs c = false) (rest : List Char) :
    (run ++ c :: rest).takeWhile belongs = run ∧
      (run ++ c :: rest).dropWhile belongs = c :: rest := by
  have hstop : ¬ belongs c = true := Bool.eq_false_iff.1 hc
  rw [List.takeWhile_append_of_pos hrun, List.dropWhile_append_of_pos hrun,
    List.takeWhile_cons_of_neg hstop, List.dropWhile_cons_of_neg hstop, List.append_nil]
  exact ⟨rfl, rfl⟩

theorem dropWhile_blanks {blanks : List Char} {c : Char}
    (hblanks : ∀ c ∈ blanks, isBlankChar c = true) (hc : isLineBlank c = false)
    (rest : List Char) : (blanks ++ c :: rest).dropWhile isLineBlank = c :: rest :=
  (span_append hblanks hc rest).2

theorem isLineBlank_of_isQuote {c : Char} (hquote : isQuote c = true) : isLineBlank c = false := by
  rcases isQuote_iff.1 hquote with rfl | rfl
  · decide
  · decide

theorem isLineBlank_of_isBareKeyChar {c : Char} (hc : Toml.isBareKeyChar c = true) :
    isLineBlank c = false := by
  rw [← Bool.not_eq_true]
  intro hblank
  rw [isLineBlank, Bool.or_eq_true, beq_iff_eq, beq_iff_eq] at hblank
  rcases hblank with rfl | rfl
  · contradiction
  · contradiction

theorem dropWhile_before_key {blanks : List Char} (hkey : Toml.IsBareKey key)
    (hblanks : ∀ c ∈ blanks, isBlankChar c = true) (rest : List Char) :
    (blanks ++ (key ++ rest)).dropWhile isLineBlank = key ++ rest := by
  obtain ⟨c, others, rfl⟩ := List.exists_cons_of_ne_nil hkey.1
  have hc := isLineBlank_of_isBareKeyChar (List.forall_mem_cons.1 hkey.2).1
  exact dropWhile_blanks hblanks hc (others ++ rest)

/-- No line that leads to the value of a key is a table header. -/
theorem isTableHeader_lead {lead : List Char} (hkey : Toml.IsBareKey key)
    (hlead : IsKeyLead key lead) (rest : List Char) : isTableHeader (lead ++ rest) = false := by
  obtain ⟨before, between, behind, rfl, hbefore, _, _⟩ := hlead
  have hblanks := dropWhile_before_key hkey hbefore (between ++ '=' :: (behind ++ rest))
  have hwhole : before ++ key ++ between ++ '=' :: behind ++ rest =
      before ++ (key ++ (between ++ '=' :: (behind ++ rest))) := by
    simp
  rw [isTableHeader, hwhole, hblanks, Toml.head?_append hkey.1, beq_eq_false_iff_ne]
  intro hhead
  have hbracket := hkey.2 '[' (List.mem_of_head? hhead)
  contradiction

/-- Whatever a line holds that assigns a value to the key is read off it. -/
theorem Assignment.IsAt.ofLine?_eq (hassignment : assignment.IsAt key line)
    (hkey : Toml.IsBareKey key) : Assignment.ofLine? key line = some assignment := by
  obtain ⟨before, between, behind, hlead, hbefore, hbetween, hbehind⟩ := hassignment.lead
  obtain ⟨close, hclose, hline⟩ := hassignment.line
  have hquote := isQuote_iff.2 hassignment.quote
  have hplain : ∀ c ∈ assignment.value, (!isQuote c && c != '\n') = true := by
    intro c hc
    simpa using hassignment.value c hc
  have hstop : (!isQuote close && close != '\n') = false := by
    rw [hclose, Bool.not_true, Bool.false_and]
  obtain ⟨hvalue, htrail⟩ := span_append hplain hstop assignment.trail
  generalize hrest : assignment.quote :: (assignment.value ++ close :: assignment.trail) = rest
  have hwhole : line = assignment.lead ++ rest := by
    rw [hline, ← hrest, List.append_assoc, List.cons_append]
  have hnamed : line.dropWhile isLineBlank = key ++ (between ++ '=' :: (behind ++ rest)) := by
    have hblanks := dropWhile_before_key hkey hbefore (between ++ '=' :: (behind ++ rest))
    rw [hwhole, hlead]
    simpa using hblanks
  have hsigned : (between ++ '=' :: (behind ++ rest)).dropWhile isLineBlank =
      ['='] ++ (behind ++ rest) :=
    dropWhile_blanks hbetween rfl _
  have hopened : (behind ++ rest).dropWhile isLineBlank = rest := by
    rw [← hrest]
    exact dropWhile_blanks hbehind (isLineBlank_of_isQuote hquote) _
  have hlead : line.take (line.length - rest.length) = assignment.lead := by
    rw [hwhole, List.length_append, Nat.add_sub_cancel, List.take_left]
  simp only [Assignment.ofLine?, hnamed, Text.after?_append, hsigned, hopened, hlead,
    Option.bind_eq_bind, Option.bind_some]
  rw [← hrest]
  simp only [hquote, hvalue, htrail, hclose]
  rfl

theorem isKeyLead_equals (key : List Char) : IsKeyLead key (key ++ " = ".toList) := by
  refine ⟨[], [' '], [' '], ?_, nofun, ?_, ?_⟩
  · rw [List.nil_append, List.append_assoc]
    rfl
  · exact List.forall_mem_singleton.2 rfl
  · exact List.forall_mem_singleton.2 rfl

theorem isBareKey_versionKey : Toml.IsBareKey versionKey :=
  ⟨by decide, List.all_eq_true.1 (by decide)⟩

theorem isBareKey_obsoleteKey : Toml.IsBareKey obsoleteKey :=
  ⟨by decide, List.all_eq_true.1 (by decide)⟩

end Assignments

section Texts

variable {text value trail rest tail : List Char} {quote close : Char}

/-- A text that may stand between marks as it is. -/
def IsSimple (value : List Char) : Prop :=
  value ≠ [] ∧ ∀ c ∈ value, isPlainChar c = true ∧ isQuote c = false ∧ c ≠ '\\'

theorem quoted?_append (hvalue : ∀ c ∈ value, isPlainChar c = true ∧ isQuote c = false ∧ c ≠ '\\')
    (rest : List Char) : Toml.quoted? none (value ++ '"' :: rest) = some (value, rest) := by
  induction value with
  | nil => rfl
  | cons c value ih =>
      obtain ⟨⟨hplain, hquote, hslash⟩, hvalue⟩ := List.forall_mem_cons.1 hvalue
      have hmark : c ≠ '"' := by
        rintro rfl
        cases hquote
      simp only [List.cons_append, Toml.quoted?, hmark, hslash, hplain, if_false, if_true,
        ih hvalue]
      rfl

theorem literal?_append (hvalue : ∀ c ∈ value, isPlainChar c = true ∧ isQuote c = false ∧ c ≠ '\\')
    (rest : List Char) : Toml.literal? (value ++ '\'' :: rest) = some (value, rest) := by
  induction value with
  | nil => rfl
  | cons c value ih =>
      obtain ⟨⟨hplain, hquote, hslash⟩, hvalue⟩ := List.forall_mem_cons.1 hvalue
      have hmark : c ≠ '\'' := by
        rintro rfl
        cases hquote
      simp only [List.cons_append, Toml.literal?, hmark, hplain, if_false, if_true, ih hvalue]
      rfl

/-- A simple text between equal marks is read as it is. -/
theorem text?_simple (hvalue : IsSimple value) (hquote : quote = '"' ∨ quote = '\'')
    (rest : List Char) :
    text? (quote :: value ++ quote :: rest) = some (String.ofList value, rest) := by
  have hlines : ¬ Toml.OpensLines (quote :: value ++ quote :: rest) := by
    rintro ⟨mark, left, hmark, htext⟩
    obtain ⟨c, others, rfl⟩ := List.exists_cons_of_ne_nil hvalue.1
    obtain ⟨rfl, hbehind⟩ := List.cons.inj htext
    obtain ⟨rfl, _⟩ := List.cons.inj hbehind
    have hplain := (List.forall_mem_cons.1 hvalue.2).1.2.1
    rw [isQuote_iff.2 hmark] at hplain
    cases hplain
  rw [Toml.text?_eq_lineText? hlines]
  rcases hquote with rfl | rfl
  · simp only [List.cons_append, Toml.lineText?, quoted?_append hvalue.2]
    rfl
  · simp only [List.cons_append, Toml.lineText?, literal?_append hvalue.2]
    rfl

/-- A text whose line may go on like the end of a line ends on its line. -/
theorem text?_on_line {content : String} {behind : List Char}
    (hvalue : ∀ c ∈ value, isQuote c = false ∧ c ≠ '\n') (hquote : isQuote quote = true)
    (hclose : isQuote close = true) (htrail : '\n' ∉ trail)
    (htail : tail = [] ∨ tail.head? = some '\n') (hends : endsLine (trail ++ tail) = true)
    (hread : text? (quote :: value ++ close :: (trail ++ tail)) = some (content, behind)) :
    ∃ left, '\n' ∉ left ∧ behind = left ++ tail := by
  have hfeed : ∀ {c : Char}, isQuote c = true → c ≠ '\n' := by
    rintro c hc rfl
    cases hc
  have hlines : ¬ Toml.OpensLines (quote :: value ++ close :: (trail ++ tail)) := by
    rintro ⟨mark, left, hmark, htext⟩
    obtain ⟨rfl, hbehind⟩ := List.cons.inj htext
    match value with
    | [] =>
        obtain ⟨rfl, hbehind⟩ := List.cons.inj hbehind
        rw [hbehind, Toml.endsLine_cons] at hends
        rcases hmark with rfl | rfl
        · cases hends
        · cases hends
    | c :: value =>
        obtain ⟨rfl, _⟩ := List.cons.inj hbehind
        have hplain := (List.forall_mem_cons.1 hvalue).1.1
        rw [hquote] at hplain
        cases hplain
  rw [Toml.text?_eq_lineText? hlines] at hread
  obtain ⟨run, hrun, hsplit, _⟩ := Toml.lineText?_spans hread
  have hline : '\n' ∉ quote :: value ++ close :: trail := by
    rw [List.cons_append, List.mem_cons, List.mem_append, List.mem_cons]
    rintro (hmark | hmem | hmark | hmem)
    · exact hfeed hquote hmark.symm
    · exact (hvalue _ hmem).2 rfl
    · exact hfeed hclose hmark.symm
    · exact htrail hmem
  have hwhole : (quote :: value ++ close :: trail) ++ tail = run ++ behind := by
    rw [← hsplit]
    simp
  rcases List.append_eq_append_iff.1 hwhole with ⟨run', rfl, hrun'⟩ | ⟨left, hleft, rfl⟩
  · cases run' with
    | nil => exact ⟨[], List.not_mem_nil, hrun'.symm⟩
    | cons c run' =>
        rcases htail with rfl | hhead
        · cases hrun'
        · rw [hrun'] at hhead
          cases hhead
          exact absurd (List.mem_append_right _ List.mem_cons_self) hrun
  · refine ⟨left, ?_, rfl⟩
    intro hmem
    rw [hleft] at hline
    exact hline (List.mem_append_right _ hmem)

end Texts

section Agreement

open Toml (expressions IsBareKey)
open Toml.Entries (SetsText)

variable {key value line after : List Char} {assignment : Assignment}
  {root left right : Toml.Entries} {fuel fuel' : Nat}

/-- What stands behind the value of a line: the rest of the line, and a line end
if there is more. -/
theorem exists_trail (hassignment : assignment.IsAt key line)
    (hline : Text.IsFullLine line ∨ Text.IsOpenLine line ∧ after = []) :
    ∃ trail tail, '\n' ∉ trail ∧ (tail = [] ∨ tail.head? = some '\n') ∧
      assignment.trail ++ after = trail ++ tail := by
  obtain ⟨close, hclose, hwhole⟩ := hassignment.line
  rcases hline with ⟨content, hcontent, hfull⟩ | ⟨⟨_, hopen⟩, rfl⟩
  · rw [hwhole] at hfull
    rcases List.eq_nil_or_concat assignment.trail with hnil | ⟨trail, c, htrail⟩
    · rw [hnil] at hfull
      obtain ⟨_, hlast⟩ := List.append_inj' hfull rfl
      cases hlast
      cases hclose
    · rw [htrail] at hfull
      have hsplit : (assignment.lead ++ assignment.quote :: assignment.value ++ close :: trail) ++
          [c] = content ++ ['\n'] := by
        rw [← hfull]
        simp
      obtain ⟨hinit, hlast⟩ := List.append_inj' hsplit rfl
      cases hlast
      refine ⟨trail, '\n' :: after, ?_, Or.inr rfl, ?_⟩
      · intro hmem
        rw [← hinit] at hcontent
        exact hcontent (List.mem_append_right _ (List.mem_cons_of_mem _ hmem))
      · rw [htrail]
        simp
  · refine ⟨assignment.trail, [], ?_, Or.inl rfl, rfl⟩
    intro hmem
    rw [hwhole] at hopen
    exact hopen (List.mem_append_right _ (List.mem_cons_of_mem _ hmem))

/-- A line whose value is replaced changes the value of its key only. -/
theorem setsText_of_withValue (hkey : IsBareKey key) (hassignment : assignment.IsAt key line)
    (hline : Text.IsFullLine line ∨ Text.IsOpenLine line ∧ after = [])
    (hvalue : IsSimple value)
    (hleft : expressions fuel ⟨root, []⟩ (line ++ after) = .ok left)
    (hright : expressions fuel' ⟨root, []⟩ (assignment.withValue value ++ after) = .ok right) :
    SetsText (String.ofList key) (String.ofList value) left right := by
  obtain ⟨close, hclose, hwhole⟩ := hassignment.line
  obtain ⟨trail, tail, htrail, htail, hsplit⟩ := exists_trail hassignment hline
  have hsource : line ++ after = assignment.lead ++ assignment.quote ::
      (assignment.value ++ close :: (trail ++ tail)) := by
    rw [hwhole, ← hsplit]
    simp
  have hresult : assignment.withValue value ++ after = assignment.lead ++ assignment.quote ::
      (value ++ assignment.quote :: (trail ++ tail)) := by
    rw [Assignment.withValue, ← hsplit]
    simp
  rw [hsource] at hleft
  rw [hresult] at hright
  obtain ⟨written, behind', more', hwritten, hends, hfree, hright⟩ :=
    Toml.expressions_text hkey hassignment.lead hassignment.quote hright
  have hsimple := text?_simple hvalue hassignment.quote (trail ++ tail)
  rw [List.cons_append, hwritten] at hsimple
  cases hsimple
  obtain ⟨content, behind, more, hcontent, hends', _, hleft⟩ :=
    Toml.expressions_text hkey hassignment.lead hassignment.quote hleft
  obtain ⟨rest, hrest, rfl⟩ := text?_on_line hassignment.value (isQuote_iff.2 hassignment.quote)
    hclose htrail htail hends hcontent
  have hleft := Toml.expressions_behind hrest htail hends' hleft
  have hright := Toml.expressions_behind htrail htail hends hright
  refine Toml.expressions_setsText ⟨?_, ?_⟩ hleft hright
  · intro other hother
    rw [Toml.Entries.get?_put, Toml.Entries.get?_put, if_neg hother.symm, if_neg hother.symm]
  · rw [Toml.Entries.get?_put, if_pos rfl]

/-- A line that is added gives its key a value, and changes no other. -/
theorem setsText_of_added (hkey : IsBareKey key) (hvalue : IsSimple value)
    (hleft : expressions fuel ⟨root, []⟩ after = .ok left)
    (hright : expressions fuel' ⟨root, []⟩
      (key ++ " = \"".toList ++ value ++ ['"'] ++ '\n' :: after) = .ok right) :
    SetsText (String.ofList key) (String.ofList value) left right := by
  have hresult : key ++ " = \"".toList ++ value ++ ['"'] ++ '\n' :: after =
      (key ++ " = ".toList) ++ '"' :: (value ++ '"' :: '\n' :: after) := by
    simp
  rw [hresult] at hright
  obtain ⟨written, behind, more, hwritten, _, _, hright⟩ :=
    Toml.expressions_text hkey (isKeyLead_equals key) (Or.inl rfl) hright
  have hsimple := text?_simple hvalue (Or.inl rfl) ('\n' :: after)
  rw [List.cons_append, hwritten] at hsimple
  cases hsimple
  have hright := Toml.expressions_congr (Toml.skipLayout_feed after) hright
  refine Toml.expressions_setsText ⟨?_, ?_⟩ hleft hright
  · intro other hother
    rw [Toml.Entries.get?_put, if_neg hother.symm]
  · rw [Toml.Entries.get?_put, if_pos rfl]

end Agreement

end Metadata

end StubSync
