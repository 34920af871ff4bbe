/-
What stands between the lines of a document: blanks, comments, and ends of lines.

Layout in front of a key is passed over character by character, and only what it
has come to matters for the rest: the start of a line, or a comment.
-/
import StubSync.Proofs.Toml.Extension

namespace StubSync

namespace Toml

section Layout

variable {text tail rest : List Char} {c : Char}

/-- Something other than layout starts with the character. -/
def startsHere (inComment : Bool) (c : Char) : Bool :=
  !inComment && !isBlankChar c && c != '\n' && c != '\r' && c != '#'

/-- Whether a comment goes on behind a character of layout, which another
character may have to follow. -/
def commentBehind? (inComment : Bool) (c : Char) (next : Option Char) : Option Bool :=
  if c = '\n' then some false
  else if c = '\r' then if next = some '\n' then some inComment else none
  else if inComment then if isPlainChar c then some true else none
  else some (c == '#')

theorem skipLayout_cons (inComment : Bool) (c : Char) (rest : List Char) :
    skipLayout inComment (c :: rest) =
      if startsHere inComment c then some (c :: rest)
      else (commentBehind? inComment c rest.head?).bind fun inComment =>
        skipLayout inComment rest := by
  rw [skipLayout, commentBehind?]
  by_cases hfeed : c = '\n'
  · simp [startsHere, hfeed]
  by_cases hreturn : c = '\r'
  · by_cases hnext : rest.head? = some '\n' <;> simp [startsHere, hreturn, hnext]
  cases inComment with
  | true => by_cases hplain : isPlainChar c = true <;> simp [startsHere, hfeed, hreturn, hplain]
  | false =>
      by_cases hmark : c = '#'
      · subst hmark
        simp [startsHere]
      · have hnone : (c == '#') = false := beq_false_of_ne hmark
        by_cases hblank : isBlankChar c = true <;>
          simp [startsHere, hfeed, hreturn, hmark, hnone, hblank]

theorem skipLayout_feed (text : List Char) :
    skipLayout false ('\n' :: text) = skipLayout false text := by
  rw [skipLayout]
  rfl

theorem skipLayout_nil (inComment : Bool) : skipLayout inComment [] = some [] := by
  rw [skipLayout]

/-- More text is no hindrance to layout. -/
theorem commentBehind?_append {inComment later : Bool}
    (hbehind : commentBehind? inComment c rest.head? = some later) (tail : List Char) :
    commentBehind? inComment c (rest ++ tail).head? = some later := by
  cases rest with
  | nil =>
      unfold commentBehind? at hbehind ⊢
      by_cases hreturn : c = '\r'
      · subst hreturn
        simp at hbehind
      · simpa only [hreturn, if_false] using hbehind
  | cons d rest => exact hbehind

/-- Layout that is skipped up to a character is skipped where more follows. -/
theorem skipLayout_append (inComment : Bool) (tail : List Char)
    (hskip : skipLayout inComment text = some rest) (hrest : rest ≠ []) :
    rest <:+ text ∧ skipLayout inComment (text ++ tail) = some (rest ++ tail) := by
  induction text generalizing inComment with
  | nil =>
      cases hskip
      exact absurd rfl hrest
  | cons c text ih =>
      rw [skipLayout_cons] at hskip
      rw [List.cons_append, skipLayout_cons]
      split at hskip
      · rename_i hstarts
        cases hskip
        rw [if_pos hstarts]
        exact ⟨List.suffix_refl _, rfl⟩
      · rename_i hlayout
        obtain ⟨later, hbehind, hskip⟩ := Option.bind_eq_some_iff.1 hskip
        obtain ⟨hsuffix, hwhole⟩ := ih later hskip
        rw [if_neg hlayout, commentBehind?_append hbehind]
        exact ⟨hsuffix.trans (List.suffix_cons c text), hwhole⟩

/-- A text of nothing but layout is skipped, and then what follows. -/
theorem skipLayout_all (inComment : Bool) (hparted : Parted text tail)
    (hskip : skipLayout inComment text = some []) :
    skipLayout inComment (text ++ tail) = skipLayout false tail := by
  induction text generalizing inComment with
  | nil =>
      obtain ⟨more, rfl⟩ := hparted.head
      rfl
  | cons c text ih =>
      rw [skipLayout_cons] at hskip
      split at hskip
      · cases hskip
      · rename_i hlayout
        obtain ⟨later, hbehind, hskip⟩ := Option.bind_eq_some_iff.1 hskip
        rw [List.cons_append, skipLayout_cons, if_neg hlayout, commentBehind?_append hbehind,
          Option.bind_some]
        by_cases hfeed : c = '\n'
        · subst hfeed
          cases hbehind
          by_cases htext : text = []
          · rw [htext, List.nil_append]
          · exact ih false (hparted.of_ne_nil htext) hskip
        · exact ih later (hparted.behind hfeed) hskip

theorem expecting_eq_ok_iff {α : Type} {reason : String} {read : Option α} {result : α} :
    expecting text reason read = .ok result ↔ read = some result := by
  cases read <;> simp [expecting]

theorem layout_eq_ok_iff {left : List Char} :
    layout text = .ok left ↔ skipLayout false text = some left :=
  expecting_eq_ok_iff

theorem layout_append {left : List Char} (hparted : Parted text tail)
    (hlayout : layout text = .ok (c :: left)) :
    Remains text tail (c :: left) ∧ layout (text ++ tail) = .ok (c :: (left ++ tail)) := by
  rw [layout_eq_ok_iff] at hlayout ⊢
  obtain ⟨hsuffix, hwhole⟩ := skipLayout_append false tail hlayout (List.cons_ne_nil c left)
  exact ⟨⟨hsuffix, hparted.of_suffix hsuffix (List.cons_ne_nil c left)⟩, hwhole⟩

end Layout

section Ends

variable {text tail rest : List Char}

theorem endsLine_cons {c : Char} {text : List Char} :
    endsLine (c :: text) = if isBlankChar c then endsLine text
      else c == '\n' || c == '\r' || c == '#' := by
  by_cases hblank : isBlankChar c = true
  · rw [if_pos hblank, endsLine, endsLine, skipBlanks, List.dropWhile_cons, if_pos hblank]
    rfl
  · rw [if_neg hblank, endsLine, skipBlanks, List.dropWhile_cons, if_neg hblank]

/-- Behind a character of layout on a line there is a comment, the end of the
line, or anything, if the character is a blank. -/
theorem commentBehind?_cases {inComment later : Bool} {c : Char}
    (hlayout : ¬ startsHere inComment c = true) (hfeed : c ≠ '\n')
    (hbehind : commentBehind? inComment c text.head? = some later) :
    later = true ∨ endsLine text = true ∨ inComment = false ∧ isBlankChar c = true := by
  rw [commentBehind?, if_neg hfeed] at hbehind
  split at hbehind
  · split at hbehind
    · rename_i hnext
      obtain ⟨behind, rfl⟩ := List.head?_eq_some_iff.1 hnext
      exact Or.inr (Or.inl rfl)
    · cases hbehind
  · rename_i hreturn
    split at hbehind
    · split at hbehind
      · cases hbehind
        exact Or.inl rfl
      · cases hbehind
    · rename_i hcomment
      cases hbehind
      by_cases hmark : c = '#'
      · exact Or.inl (beq_iff_eq.2 hmark)
      · rw [Bool.not_eq_true] at hcomment
        refine Or.inr (Or.inr ⟨hcomment, ?_⟩)
        simpa [startsHere, hcomment, hfeed, hreturn, hmark] using hlayout

/-- In a comment, or where a line ends, nothing starts. -/
theorem not_startsHere_of_ends {inComment : Bool} {c : Char}
    (hends : inComment = true ∨ endsLine (c :: text) = true) :
    ¬ startsHere inComment c = true := by
  intro hstarts
  simp only [startsHere, Bool.and_eq_true, Bool.not_eq_true', bne_iff_ne] at hstarts
  obtain ⟨⟨⟨⟨hcomment, hblank⟩, hfeed⟩, hreturn⟩, hmark⟩ := hstarts
  rcases hends with hinside | hends
  · rw [hcomment] at hinside
    cases hinside
  · simp [endsLine_cons, hblank, hfeed, hreturn, hmark] at hends

/-- Up to its feed, a line that ends goes on to end. -/
theorem ends_behind {inComment later : Bool} {c : Char} (hfeed : c ≠ '\n')
    (hends : inComment = true ∨ endsLine (c :: text) = true)
    (hbehind : commentBehind? inComment c text.head? = some later) :
    later = true ∨ endsLine text = true := by
  rcases commentBehind?_cases (not_startsHere_of_ends hends) hfeed hbehind with
    hlater | hends' | ⟨hcomment, hblank⟩
  · exact Or.inl hlater
  · exact Or.inr hends'
  · rcases hends with hinside | hends
    · rw [hcomment] at hinside
      cases hinside
    · rw [endsLine_cons, if_pos hblank] at hends
      exact Or.inr hends

/-- What is left of a line behind a value is passed over. -/
theorem skipLayout_behind {inComment : Bool} (htext : '\n' ∉ text)
    (htail : tail = [] ∨ tail.head? = some '\n')
    (hends : inComment = true ∨ endsLine (text ++ tail) = true)
    (hskip : skipLayout inComment (text ++ tail) = some rest) :
    skipLayout false tail = some rest := by
  induction text generalizing inComment with
  | nil =>
      rcases htail with rfl | hfeed
      · rw [List.nil_append, skipLayout_nil] at hskip
        rw [skipLayout_nil, hskip]
      · obtain ⟨more, rfl⟩ := List.head?_eq_some_iff.1 hfeed
        exact hskip
  | cons c text ih =>
      rw [List.mem_cons, not_or] at htext
      obtain ⟨hfeed, htext⟩ := htext
      rw [List.cons_append] at hskip hends
      rw [skipLayout_cons] at hskip
      split at hskip
      · rename_i hstarts
        exact absurd hstarts (not_startsHere_of_ends hends)
      · obtain ⟨later, hbehind, hskip⟩ := Option.bind_eq_some_iff.1 hskip
        exact ih htext (ends_behind (Ne.symm hfeed) hends hbehind) hskip

end Ends

section Headless

variable {text tail rest : List Char}

/-- No line from here on starts with an opening bracket; a line is fresh as long
as there are only blanks on it. -/
def isHeadless (fresh : Bool) : List Char → Bool
  | [] => true
  | c :: rest =>
      if c = '\n' then isHeadless true rest
      else !(fresh && c == '[') && isHeadless (fresh && isBlankChar c) rest

theorem isHeadless_of_fresh {fresh : Bool} (htext : isHeadless fresh text = true) :
    isHeadless false text = true := by
  induction text generalizing fresh with
  | nil => rfl
  | cons c text ih =>
      rw [isHeadless] at htext ⊢
      split at htext
      · rename_i hfeed
        rw [if_pos hfeed]
        exact htext
      · rename_i hfeed
        rw [Bool.and_eq_true] at htext
        rw [if_neg hfeed]
        exact ih htext.2

theorem isHeadless_of_suffix {fresh : Bool} (htext : isHeadless fresh text = true)
    (hsuffix : rest <:+ text) : isHeadless false rest = true := by
  induction text generalizing fresh with
  | nil =>
      rw [List.suffix_nil.1 hsuffix]
      rfl
  | cons c text ih =>
      rcases List.suffix_cons_iff.1 hsuffix with rfl | hsuffix
      · exact isHeadless_of_fresh htext
      · rw [isHeadless] at htext
        split at htext
        · exact ih htext hsuffix
        · rw [Bool.and_eq_true] at htext
          exact ih htext.2 hsuffix

/-- A line without a bracket at its start may stand before other lines. -/
theorem isHeadless_line (fresh : Bool) (htext : '\n' ∉ text)
    (htail : tail = [] ∨ tail.head? = some '\n')
    (hstart : fresh = true → (text.dropWhile isBlankChar).head? ≠ some '[') :
    isHeadless fresh (text ++ tail) = isHeadless true tail := by
  induction text generalizing fresh with
  | nil =>
      rcases htail with rfl | hfeed
      · rfl
      · obtain ⟨more, rfl⟩ := List.head?_eq_some_iff.1 hfeed
        rfl
  | cons c text ih =>
      rw [List.mem_cons, not_or] at htext
      obtain ⟨hfeed, htext⟩ := htext
      have hbracket : (!(fresh && c == '[')) = true := by
        cases fresh with
        | false => rfl
        | true =>
            have hc : c ≠ '[' := by
              rintro rfl
              exact hstart rfl rfl
            simp [hc]
      rw [List.cons_append, isHeadless, if_neg (Ne.symm hfeed), hbracket, Bool.true_and]
      apply ih _ htext
      intro hfresh
      rw [Bool.and_eq_true] at hfresh
      have hbehind := hstart hfresh.1
      rwa [List.dropWhile_cons, if_pos hfresh.2] at hbehind

/-- The next line of a document without headers starts with a key. -/
theorem isHeadless_skipLayout {inComment fresh : Bool} {c : Char} {left : List Char}
    (htext : isHeadless fresh text = true)
    (hends : fresh = true ∨ inComment = true ∨ endsLine text = true)
    (hskip : skipLayout inComment text = some (c :: left)) :
    c ≠ '[' ∧ isHeadless false (c :: left) = true := by
  induction text generalizing inComment fresh with
  | nil => cases hskip
  | cons d text ih =>
      rw [skipLayout_cons] at hskip
      split at hskip
      · rename_i hstarts
        cases hskip
        refine ⟨?_, isHeadless_of_fresh htext⟩
        have hfresh : fresh = true :=
          hends.resolve_right fun hends => not_startsHere_of_ends hends hstarts
        have hfeed : c ≠ '\n' := by
          rintro rfl
          simp [startsHere] at hstarts
        rw [isHeadless, if_neg hfeed, hfresh, Bool.true_and, Bool.and_eq_true] at htext
        simpa using htext.1
      · rename_i hlayout
        obtain ⟨later, hbehind, hskip⟩ := Option.bind_eq_some_iff.1 hskip
        rw [isHeadless] at htext
        split at htext
        · rename_i hfeed
          rw [commentBehind?, if_pos hfeed] at hbehind
          cases hbehind
          exact ih htext (Or.inl rfl) hskip
        · rename_i hfeed
          rw [Bool.and_eq_true] at htext
          apply ih htext.2 _ hskip
          rcases hends with hfresh | hends
          · rcases commentBehind?_cases hlayout hfeed hbehind with
              hlater | hends | ⟨_, hblank⟩
            · exact Or.inr (Or.inl hlater)
            · exact Or.inr (Or.inr hends)
            · left
              rw [hfresh, hblank]
              rfl
          · exact Or.inr (ends_behind hfeed hends hbehind)

end Headless

end Toml

end StubSync
