/-
Lines of texts: they make up the text, and texts made of full lines are cut at
these lines again.
-/
import StubSync.Text.Pieces

namespace StubSync

namespace Text

/-- A line with its line feed. -/
def IsFullLine (line : List Char) : Prop :=
  ∃ content, '\n' ∉ content ∧ line = content ++ ['\n']

/-- A line that the end of the text cuts off. -/
def IsOpenLine (line : List Char) : Prop :=
  line ≠ [] ∧ '\n' ∉ line

theorem isFullLine_append {content : List Char} (hcontent : '\n' ∉ content) :
    IsFullLine (content ++ ['\n']) :=
  ⟨content, hcontent, rfl⟩

theorem IsFullLine.cons {c : Char} {line : List Char} (hc : c ≠ '\n')
    (hline : IsFullLine line) : IsFullLine (c :: line) := by
  obtain ⟨content, hcontent, rfl⟩ := hline
  refine ⟨c :: content, ?_, rfl⟩
  rw [List.mem_cons, not_or]
  exact ⟨Ne.symm hc, hcontent⟩

theorem lines_flatten (text : List Char) : (lines text).flatten = text := by
  fun_induction lines text with
  | case1 => rfl
  | case2 rest ih => rw [List.flatten_cons, ih, List.singleton_append]
  | case3 c rest hc hlines ih =>
      rw [hlines] at ih
      rw [← ih]
      rfl
  | case4 c rest hc line others hlines ih =>
      rw [hlines] at ih
      rw [← ih]
      rfl

theorem isFullLine_or_isOpenLine (text : List Char) :
    ∀ line ∈ lines text, IsFullLine line ∨ IsOpenLine line := by
  have hopen : ∀ {c : Char} {line : List Char}, c ≠ '\n' → '\n' ∉ line →
      IsOpenLine (c :: line) := by
    intro c line hc hline
    refine ⟨List.cons_ne_nil c line, ?_⟩
    rw [List.mem_cons, not_or]
    exact ⟨Ne.symm hc, hline⟩
  fun_induction lines text with
  | case1 => nofun
  | case2 rest ih =>
      have hfeed : IsFullLine ['\n'] := ⟨[], List.not_mem_nil, rfl⟩
      exact List.forall_mem_cons.2 ⟨Or.inl hfeed, ih⟩
  | case3 c rest hc hlines ih =>
      exact List.forall_mem_cons.2 ⟨Or.inr (hopen hc List.not_mem_nil), nofun⟩
  | case4 c rest hc first others hlines ih =>
      rw [hlines, List.forall_mem_cons] at ih
      obtain ⟨hfirst, hothers⟩ := ih
      refine List.forall_mem_cons.2 ⟨?_, hothers⟩
      rcases hfirst with hfull | ⟨_, hline⟩
      · exact Or.inl (hfull.cons hc)
      · exact Or.inr (hopen hc hline)

/-- Only the last line of a text is cut off. -/
theorem isFullLine_of_lines {text line : List Char} {before after : List (List Char)}
    (hlines : lines text = before ++ line :: after) :
    IsFullLine line ∨ IsOpenLine line ∧ after = [] := by
  fun_induction lines text generalizing before line after with
  | case1 => simp at hlines
  | case2 rest ih =>
      cases before with
      | nil =>
          cases hlines
          exact Or.inl ⟨[], List.not_mem_nil, rfl⟩
      | cons first before => exact ih (List.cons.inj hlines).2
  | case3 c rest hc hrest ih =>
      cases before with
      | nil =>
          cases hlines
          refine Or.inr ⟨⟨List.cons_ne_nil c [], ?_⟩, rfl⟩
          rw [List.mem_singleton]
          exact Ne.symm hc
      | cons first before => simp at hlines
  | case4 c rest hc first others hrest ih =>
      cases before with
      | nil =>
          cases hlines
          have hfirst : lines rest = [] ++ first :: others := hrest
          rcases ih hfirst with hfull | ⟨⟨_, hline⟩, hafter⟩
          · exact Or.inl (hfull.cons hc)
          · refine Or.inr ⟨⟨List.cons_ne_nil c first, ?_⟩, hafter⟩
            rw [List.mem_cons, not_or]
            exact ⟨Ne.symm hc, hline⟩
      | cons start before =>
          have hlater : lines rest = (first :: before) ++ line :: after := by
            rw [hrest, (List.cons.inj hlines).2]
            rfl
          exact ih hlater

/-- Lines that others come behind are full. -/
theorem isFullLine_of_mem {text line : List Char} {before after : List (List Char)}
    (hlines : lines text = before ++ line :: after) : ∀ other ∈ before, IsFullLine other := by
  intro other hother
  obtain ⟨front, back, rfl⟩ := List.append_of_mem hother
  rw [List.append_assoc] at hlines
  rcases isFullLine_of_lines hlines with hfull | ⟨_, hnil⟩
  · exact hfull
  · simp at hnil

theorem lines_append_feed {content : List Char} (hcontent : '\n' ∉ content)
    (rest : List Char) :
    lines (content ++ '\n' :: rest) = (content ++ ['\n']) :: lines rest := by
  induction content with
  | nil => simp [lines]
  | cons c content ih =>
      rw [List.mem_cons, not_or] at hcontent
      have hc : c ≠ '\n' := Ne.symm hcontent.1
      rw [List.cons_append, lines, ih hcontent.2]
      · rfl
      · exact hc

theorem lines_append {line : List Char} (hline : IsFullLine line) (rest : List Char) :
    lines (line ++ rest) = line :: lines rest := by
  obtain ⟨content, hcontent, rfl⟩ := hline
  rw [List.append_assoc, List.singleton_append, lines_append_feed hcontent]

theorem lines_flatten_append {full : List (List Char)}
    (hfull : ∀ line ∈ full, IsFullLine line) (rest : List Char) :
    lines (full.flatten ++ rest) = full ++ lines rest := by
  induction full with
  | nil => rfl
  | cons line others ih =>
      rw [List.flatten_cons, List.append_assoc, lines_append (hfull line List.mem_cons_self),
        ih fun other hother => hfull other (List.mem_cons_of_mem line hother),
        List.cons_append]

theorem lines_of_isOpenLine {line : List Char} (hline : IsOpenLine line) :
    lines line = [line] := by
  obtain ⟨hne, hfeed⟩ := hline
  induction line with
  | nil => exact absurd rfl hne
  | cons c rest ih =>
      rw [List.mem_cons, not_or] at hfeed
      have hc : c ≠ '\n' := Ne.symm hfeed.1
      by_cases hrest : rest = []
      · rw [hrest, lines]
        · rfl
        · exact hc
      · rw [lines, ih hrest hfeed.2]
        exact hc

section Places

variable {text line changed : List Char} {before after : List (List Char)}

/-- The lines behind a place are cut as in the whole text. -/
theorem lines_flatten_behind (hlines : lines text = before ++ after) :
    lines after.flatten = after := by
  cases after with
  | nil => rfl
  | cons line after =>
      have hfull := isFullLine_of_mem hlines
      have htext : text = before.flatten ++ (line :: after).flatten := by
        rw [← List.flatten_append, ← hlines, lines_flatten]
      rw [htext, lines_flatten_append hfull] at hlines
      exact List.append_cancel_left hlines

/-- A line that is replaced by one which ends as it does leaves the others as
they are. -/
theorem lines_replaced (hlines : lines text = before ++ line :: after)
    (hfull : IsFullLine line → IsFullLine changed)
    (hopen : IsOpenLine line → IsOpenLine changed) :
    lines (before.flatten ++ (changed ++ after.flatten)) = before ++ changed :: after := by
  rw [lines_flatten_append (isFullLine_of_mem hlines)]
  rcases isFullLine_of_lines hlines with hline | ⟨hline, rfl⟩
  · rw [List.append_cons] at hlines
    rw [lines_append (hfull hline), lines_flatten_behind hlines]
  · rw [List.flatten_nil, List.append_nil, lines_of_isOpenLine (hopen hline)]

/-- Full lines that stand in place of a line leave the others as they are. -/
theorem lines_spliced {put : List (List Char)} (hlines : lines text = before ++ line :: after)
    (hput : ∀ line ∈ put, IsFullLine line) :
    lines (before.flatten ++ (put.flatten ++ after.flatten)) = before ++ (put ++ after) := by
  have hbehind : lines text = (before ++ [line]) ++ after := by
    rw [hlines, List.append_cons]
  rw [lines_flatten_append (isFullLine_of_mem hlines), lines_flatten_append hput,
    lines_flatten_behind hbehind]

variable {front old new back : List Char}

theorem IsFullLine.replace (hline : IsFullLine (front ++ (old ++ back))) (hne : old ≠ [])
    (hold : '\n' ∉ old) (hnew : '\n' ∉ new) : IsFullLine (front ++ (new ++ back)) := by
  obtain ⟨content, hcontent, hwhole⟩ := hline
  rcases List.eq_nil_or_concat back with rfl | ⟨others, c, rfl⟩
  · obtain ⟨others, c, rfl⟩ := (List.eq_nil_or_concat old).resolve_left hne
    rw [List.append_nil, List.concat_eq_append, ← List.append_assoc] at hwhole
    obtain ⟨_, hlast⟩ := List.append_inj' hwhole rfl
    rw [List.concat_eq_append, hlast] at hold
    exact absurd (List.mem_append_right others List.mem_cons_self) hold
  · rw [List.concat_eq_append, ← List.append_assoc, ← List.append_assoc] at hwhole
    obtain ⟨rfl, hlast⟩ := List.append_inj' hwhole rfl
    rw [List.append_assoc front, List.mem_append, List.mem_append, not_or, not_or] at hcontent
    refine ⟨front ++ (new ++ others), ?_, ?_⟩
    · rw [List.mem_append, List.mem_append, not_or, not_or]
      exact ⟨hcontent.1, hnew, hcontent.2.2⟩
    · rw [List.concat_eq_append, hlast, List.append_assoc, List.append_assoc]

theorem IsOpenLine.replace (hline : IsOpenLine (front ++ (old ++ back))) (hne : new ≠ [])
    (hnew : '\n' ∉ new) : IsOpenLine (front ++ (new ++ back)) := by
  obtain ⟨_, hfeed⟩ := hline
  rw [List.mem_append, List.mem_append, not_or, not_or] at hfeed
  constructor
  · exact List.append_ne_nil_of_right_ne_nil front (List.append_ne_nil_of_left_ne_nil hne back)
  · rw [List.mem_append, List.mem_append, not_or, not_or]
    exact ⟨hfeed.1, hnew, hfeed.2.2⟩

end Places

end Text

end StubSync
