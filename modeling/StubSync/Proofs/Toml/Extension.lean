/-
Reading a text that goes on.

Where a text ends with a line, or goes on with a new one, no reader that has
read the text can tell that there is more: it reads the same, and the rest goes
on like the text.
-/
import Mathlib.Data.List.TakeWhile
import StubSync.Toml.Document

namespace StubSync

namespace Toml

/-- A line ends between the texts. -/
def Parted (text tail : List Char) : Prop :=
  text.getLast? = some '\n' ∨ tail.head? = some '\n'

/-- What is left of a text, and goes on in the same way. -/
structure Remains (text tail rest : List Char) : Prop where
  suffix : rest <:+ text
  parted : Parted rest tail

/-- The reader reads a text that goes on as it reads the text. -/
def Extends {α : Type} (tail : List Char) (read : List Char → Option (α × List Char)) : Prop :=
  ∀ text result rest, Parted text tail → read text = some (result, rest) →
    Remains text tail rest ∧ read (text ++ tail) = some (result, rest ++ tail)

section Parted

variable {text tail rest middle run : List Char} {c : Char}

theorem Parted.head (hparted : Parted [] tail) : ∃ more, tail = '\n' :: more := by
  rcases hparted with hlast | hhead
  · cases hlast
  · exact List.head?_eq_some_iff.1 hhead

theorem Parted.of_suffix (hparted : Parted text tail) (hsuffix : rest <:+ text)
    (hrest : rest ≠ []) : Parted rest tail := by
  obtain ⟨run, rfl⟩ := hsuffix
  rcases hparted with hlast | hhead
  · left
    rw [List.getLast?_append, Option.or_eq_some_iff] at hlast
    rcases hlast with hlast | ⟨hnone, _⟩
    · exact hlast
    · exact absurd (List.getLast?_eq_none_iff.1 hnone) hrest
  · exact Or.inr hhead

theorem Parted.of_append (hparted : Parted (run ++ rest) tail) (hrun : '\n' ∉ run) :
    Parted rest tail := by
  by_cases hrest : rest = []
  · subst hrest
    rcases hparted with hlast | hhead
    · rw [List.append_nil] at hlast
      exact absurd (List.mem_of_getLast? hlast) hrun
    · exact Or.inr hhead
  · exact hparted.of_suffix (List.suffix_append run rest) hrest

theorem Parted.behind (hparted : Parted (c :: rest) tail) (hc : c ≠ '\n') :
    Parted rest tail := by
  have hrun : Parted ([c] ++ rest) tail := hparted
  exact hrun.of_append (by simpa using hc.symm)

theorem Parted.remains (hparted : Parted (run ++ rest) tail) (hrun : '\n' ∉ run) :
    Remains (run ++ rest) tail rest :=
  ⟨List.suffix_append run rest, hparted.of_append hrun⟩

theorem Remains.refl (hparted : Parted text tail) : Remains text tail text :=
  ⟨List.suffix_refl text, hparted⟩

theorem Remains.trans (hmiddle : Remains text tail middle) (hrest : Remains middle tail rest) :
    Remains text tail rest :=
  ⟨hrest.suffix.trans hmiddle.suffix, hrest.parted⟩

theorem Remains.cons (hrest : Remains text tail rest) : Remains (c :: text) tail rest :=
  ⟨hrest.suffix.trans (List.suffix_cons c text), hrest.parted⟩

theorem Remains.behind (hremains : Remains text tail (c :: rest)) (hc : c ≠ '\n') :
    Remains text tail rest :=
  ⟨(List.suffix_cons c rest).trans hremains.suffix, hremains.parted.behind hc⟩

/-- Characters of a class that a line feed is not in are read off both texts. -/
theorem dropWhile_append (member : Char → Bool) (hmember : member '\n' = false)
    (hparted : Parted text tail) :
    (text ++ tail).takeWhile member = text.takeWhile member ∧
      (text ++ tail).dropWhile member = text.dropWhile member ++ tail ∧
      Remains text tail (text.dropWhile member) := by
  induction text with
  | nil =>
      obtain ⟨more, rfl⟩ := hparted.head
      refine ⟨?_, ?_, Remains.refl hparted⟩
      · simp [hmember]
      · simp [hmember]
  | cons c text ih =>
      by_cases hc : member c = true
      · have hfeed : c ≠ '\n' := by
          rintro rfl
          rw [hmember] at hc
          cases hc
        obtain ⟨htake, hdrop, hremains⟩ := ih (hparted.behind hfeed)
        simp only [List.cons_append, List.takeWhile_cons, List.dropWhile_cons, hc, if_true,
          htake, hdrop, true_and]
        exact hremains.cons
      · rw [Bool.not_eq_true] at hc
        simp only [List.cons_append, List.takeWhile_cons, List.dropWhile_cons, hc,
          Bool.false_eq_true, if_false, true_and]
        exact Remains.refl hparted

end Parted

section Texts

variable {α : Type} {c : Char} {text tail rest content : List Char} {result : α}
  {read next : List Char → Option (α × List Char)}

/-- The reader reads the result off the start of the text, within one line and
whatever follows. -/
def Spans (read : List Char → Option (α × List Char)) (text : List Char) (result : α)
    (rest : List Char) : Prop :=
  ∃ run, '\n' ∉ run ∧ text = run ++ rest ∧ ∀ tail, read (run ++ tail) = some (result, tail)

theorem Spans.cons (hspans : Spans next text result rest) (hc : c ≠ '\n')
    (hnext : ∀ tail, read (c :: tail) = next tail) : Spans read (c :: text) result rest := by
  obtain ⟨run, hrun, rfl, htail⟩ := hspans
  refine ⟨c :: run, ?_, rfl, ?_⟩
  · rw [List.mem_cons, not_or]
    exact ⟨hc.symm, hrun⟩
  · intro tail
    rw [List.cons_append, hnext, htail]

theorem Spans.map {β : Type} (hspans : Spans read text result rest) (make : α → β) :
    Spans (fun tail => (read tail).map fun (result, rest) => (make result, rest)) text
      (make result) rest := by
  obtain ⟨run, hrun, rfl, htail⟩ := hspans
  refine ⟨run, hrun, rfl, ?_⟩
  intro tail
  simp only [htail, Option.map_some]

theorem Spans.close (hc : c ≠ '\n') (hread : ∀ tail, read (c :: tail) = some (result, tail)) :
    Spans read (c :: rest) result rest := by
  refine ⟨[c], ?_, rfl, hread⟩
  rw [List.mem_singleton]
  exact hc.symm

theorem Spans.extend (hspans : Spans read text result rest) (hparted : Parted text tail) :
    Remains text tail rest ∧ read (text ++ tail) = some (result, rest ++ tail) := by
  obtain ⟨run, hrun, rfl, htail⟩ := hspans
  refine ⟨hparted.remains hrun, ?_⟩
  rw [List.append_assoc]
  exact htail (rest ++ tail)

theorem Spans.push {read : List Char → Option (List Char × List Char)}
    (hspans : Spans read text content rest) (c : Char) :
    Spans (fun tail => push c (read tail)) text (c :: content) rest :=
  hspans.map (c :: ·)

theorem push_eq_some_iff {found : Option (List Char × List Char)} :
    push c found = some (content, rest) ↔
      ∃ later, found = some (later, rest) ∧ content = c :: later := by
  unfold push
  constructor
  · intro hpush
    obtain ⟨⟨later, rest⟩, hfound, hcontent⟩ := Option.map_eq_some_iff.1 hpush
    cases hcontent
    exact ⟨later, hfound, rfl⟩
  · rintro ⟨later, rfl, rfl⟩
    rfl

theorem isPlainChar_feed : isPlainChar '\n' = false := by
  decide

theorem ne_feed_of_isPlainChar (hc : isPlainChar c = true) : c ≠ '\n' := by
  rintro rfl
  rw [isPlainChar_feed] at hc
  cases hc

theorem step?_feed (escape : Escape) : escape.step? '\n' = none := by
  cases escape <;> rfl

theorem quoted?_spans (escape : Option Escape) (text content rest : List Char)
    (hread : quoted? escape text = some (content, rest)) :
    Spans (quoted? escape) text content rest := by
  induction text generalizing escape content with
  | nil => cases hread
  | cons c text ih =>
      cases escape with
      | some escape =>
          have hc : c ≠ '\n' := by
            rintro rfl
            simp [quoted?, step?_feed] at hread
          cases hstep : escape.step? c with
          | none => simp [quoted?, hstep] at hread
          | some result =>
              cases result with
              | inl next =>
                  simp only [quoted?, hstep] at hread
                  exact (ih _ _ hread).cons hc fun tail => by simp only [quoted?, hstep]
              | inr meant =>
                  simp only [quoted?, hstep] at hread
                  obtain ⟨later, hlater, rfl⟩ := push_eq_some_iff.1 hread
                  exact ((ih _ _ hlater).push meant).cons hc fun tail => by
                    simp only [quoted?, hstep]
      | none =>
          by_cases hquote : c = '"'
          · subst hquote
            cases hread
            exact .close (by decide) fun tail => rfl
          · by_cases hslash : c = '\\'
            · subst hslash
              exact (ih _ _ hread).cons (by decide) fun tail => rfl
            · by_cases hplain : isPlainChar c = true
              · simp only [quoted?, hquote, hslash, hplain, if_false, if_true] at hread
                obtain ⟨later, hlater, rfl⟩ := push_eq_some_iff.1 hread
                exact ((ih _ _ hlater).push c).cons (ne_feed_of_isPlainChar hplain)
                  fun tail => by simp only [quoted?, hquote, hslash, hplain, if_false, if_true]
              · simp [quoted?, hquote, hslash, hplain] at hread

theorem literal?_spans (text content rest : List Char)
    (hread : literal? text = some (content, rest)) : Spans literal? text content rest := by
  induction text generalizing content with
  | nil => cases hread
  | cons c text ih =>
      by_cases hmark : c = '\''
      · subst hmark
        cases hread
        exact .close (by decide) fun tail => rfl
      · by_cases hplain : isPlainChar c = true
        · simp only [literal?, hmark, hplain, if_false, if_true] at hread
          obtain ⟨later, hlater, rfl⟩ := push_eq_some_iff.1 hread
          exact ((ih _ hlater).push c).cons (ne_feed_of_isPlainChar hplain)
            fun tail => by simp only [literal?, hmark, hplain, if_false, if_true]
        · simp [literal?, hmark, hplain] at hread

theorem lineText?_spans {content : String}
    (hread : lineText? text = some (content, rest)) : Spans lineText? text content rest := by
  unfold lineText? at hread
  split at hread
  · obtain ⟨⟨inner, left⟩, hinner, hresult⟩ := Option.map_eq_some_iff.1 hread
    cases hresult
    exact ((quoted?_spans none _ _ _ hinner).map String.ofList).cons (by decide) fun tail => rfl
  · obtain ⟨⟨inner, left⟩, hinner, hresult⟩ := Option.map_eq_some_iff.1 hread
    cases hresult
    exact ((literal?_spans _ _ _ hinner).map String.ofList).cons (by decide) fun tail => rfl
  · cases hread

theorem closing?_marks (mark : Char) (left : List Char) :
    closing? mark (mark :: mark :: mark :: left) =
      some ((left.takeWhile (· == mark)).take 2,
        left.drop ((left.takeWhile (· == mark)).take 2).length) := by
  simp [closing?]

theorem exists_marks_of_closing? {mark : Char}
    (hclosing : closing? mark text = some (content, rest)) :
    ∃ left, text = mark :: mark :: mark :: left := by
  unfold closing? at hclosing
  split at hclosing
  · rename_i left
    split at hclosing
    · rename_i hmarks
      obtain ⟨rfl, rfl, rfl⟩ := hmarks
      exact ⟨left, rfl⟩
    · cases hclosing
  · cases hclosing

theorem closing?_extends {mark : Char} (hmark : mark ≠ '\n') (tail : List Char) :
    Extends tail (closing? mark) := by
  intro text content rest hparted hclosing
  obtain ⟨left, rfl⟩ := exists_marks_of_closing? hclosing
  have hleft : Parted left tail := ((hparted.behind hmark).behind hmark).behind hmark
  obtain ⟨htake, _, _⟩ := dropWhile_append (· == mark) (beq_false_of_ne hmark.symm) hleft
  rw [closing?_marks, Option.some.injEq, Prod.mk.injEq] at hclosing
  obtain ⟨hcontent, hrest⟩ := hclosing
  have hprefix : content <+: left := by
    rw [← hcontent]
    exact (List.take_prefix 2 _).trans (List.takeWhile_prefix _)
  have hfeed : '\n' ∉ content := by
    intro hmem
    rw [← hcontent] at hmem
    have hequal := List.mem_takeWhile_imp (List.mem_of_mem_take hmem)
    exact hmark (eq_of_beq hequal).symm
  obtain ⟨rest', rfl⟩ := hprefix
  rw [hcontent, List.drop_left] at hrest
  subst hrest
  refine ⟨(hleft.remains hfeed).cons.cons.cons, ?_⟩
  rw [List.cons_append, List.cons_append, List.cons_append, closing?_marks, htake, hcontent,
    List.append_assoc, List.drop_left]

/-- Where no marks end the text, none do so further on. -/
theorem closing?_append {mark : Char} (hmark : mark ≠ '\n')
    (hparted : Parted (c :: text) tail) (hclosing : closing? mark (c :: text) = none) :
    closing? mark (c :: text ++ tail) = none := by
  cases hwhole : closing? mark (c :: text ++ tail) with
  | none => rfl
  | some closed =>
      obtain ⟨left, hleft⟩ := exists_marks_of_closing? hwhole
      obtain ⟨rfl, hleft⟩ := List.cons.inj hleft
      match text, hparted, hclosing, hleft with
      | [], hparted, _, hleft =>
          obtain ⟨more, rfl⟩ := (hparted.behind hmark).head
          exact absurd (List.cons.inj hleft).1.symm hmark
      | [d], hparted, _, hleft =>
          obtain ⟨rfl, hleft⟩ := List.cons.inj hleft
          obtain ⟨more, rfl⟩ := ((hparted.behind hmark).behind hmark).head
          exact absurd (List.cons.inj hleft).1.symm hmark
      | d :: e :: text, _, hclosing, hleft =>
          obtain ⟨rfl, hleft⟩ := List.cons.inj hleft
          obtain ⟨rfl, _⟩ := List.cons.inj hleft
          rw [closing?_marks] at hclosing
          cases hclosing

/-- A step within a text of several lines looks at one more character. -/
theorem step?_congr (fold : Fold) (c : Char) {rest other : List Char}
    (hhead : rest.head? = other.head?) : fold.step? c rest = fold.step? c other := by
  have hline : isLineChar c rest = isLineChar c other := by
    unfold isLineChar
    rw [hhead]
  have hblank : isFoldBlank c rest = isFoldBlank c other := by
    unfold isFoldBlank
    rw [hhead]
  have hplain : Fold.step?.plain c rest = Fold.step?.plain c other := by
    unfold Fold.step?.plain
    rw [hline]
  have hending : Fold.step?.ending c rest = Fold.step?.ending c other := by
    unfold Fold.step?.ending
    rw [hblank]
  unfold Fold.step?
  rw [hplain, hending, hblank]

theorem Parted.of_ne_nil (hparted : Parted (c :: text) tail) (htext : text ≠ []) :
    Parted text tail :=
  hparted.of_suffix (List.suffix_cons c text) htext

theorem head?_append (htext : text ≠ []) : (text ++ tail).head? = text.head? := by
  cases text with
  | nil => exact absurd rfl htext
  | cons c text => rfl

theorem quotedLines?_extends (fold : Fold) (tail : List Char) :
    Extends tail (quotedLines? fold) := by
  intro text
  induction text generalizing fold with
  | nil => nofun
  | cons c text ih =>
      intro content rest hparted hread
      rw [quotedLines?] at hread
      split at hread
      · rename_i closed hclosing
        cases hread
        split at hclosing
        · rename_i hmay
          obtain ⟨hremains, hwhole⟩ := closing?_extends (by decide) tail _ _ _ hparted hclosing
          refine ⟨hremains, ?_⟩
          rw [List.cons_append] at hwhole
          rw [List.cons_append, quotedLines?, if_pos hmay, hwhole]
        · cases hclosing
      · rename_i hclosing
        have htext : text ≠ [] := by
          rintro rfl
          split at hread
          · cases hread
          · cases hread
          · rename_i fold meant _
            obtain ⟨later, hlater, _⟩ := push_eq_some_iff.1 hread
            cases hlater
        have hnext : Parted text tail := hparted.of_ne_nil htext
        have hhead : (text ++ tail).head? = text.head? := head?_append htext
        have hstep := step?_congr fold c hhead
        have hopen : (if fold.mayClose = true then closing? '"' (c :: (text ++ tail)) else none) =
            none := by
          split
          · rename_i hmay
            rw [if_pos hmay] at hclosing
            exact closing?_append (by decide) hparted hclosing
          · rfl
        rw [List.cons_append, quotedLines?, hopen, hstep]
        split at hread
        · cases hread
        · obtain ⟨hremains, hwhole⟩ := ih _ _ _ hnext hread
          exact ⟨hremains.cons, hwhole⟩
        · obtain ⟨later, hlater, rfl⟩ := push_eq_some_iff.1 hread
          obtain ⟨hremains, hwhole⟩ := ih _ _ _ hnext hlater
          exact ⟨hremains.cons, push_eq_some_iff.2 ⟨later, hwhole, rfl⟩⟩

theorem literalLines?_extends (tail : List Char) : Extends tail literalLines? := by
  intro text
  induction text with
  | nil => nofun
  | cons c text ih =>
      intro content rest hparted hread
      rw [literalLines?] at hread
      split at hread
      · rename_i closed hclosing
        cases hread
        obtain ⟨hremains, hwhole⟩ := closing?_extends (by decide) tail _ _ _ hparted hclosing
        rw [List.cons_append] at hwhole
        refine ⟨hremains, ?_⟩
        rw [List.cons_append, literalLines?, hwhole]
      · rename_i hclosing
        split at hread
        · rename_i hline
          obtain ⟨later, hlater, rfl⟩ := push_eq_some_iff.1 hread
          have htext : text ≠ [] := by
            rintro rfl
            cases hlater
          have hopen := closing?_append (by decide) hparted hclosing
          have hwhole : isLineChar c (text ++ tail) = true := by
            unfold isLineChar at hline ⊢
            rw [head?_append htext]
            exact hline
          obtain ⟨hremains, hlater⟩ := ih _ _ (hparted.of_ne_nil htext) hlater
          refine ⟨hremains.cons, ?_⟩
          rw [List.cons_append] at hopen
          rw [List.cons_append, literalLines?, hopen, if_pos hwhole]
          exact push_eq_some_iff.2 ⟨later, hlater, rfl⟩
        · cases hread

theorem skipFirstLineEnd_eq_self (hfeed : ∀ rest, text ≠ '\n' :: rest)
    (hreturn : ∀ rest, text ≠ '\r' :: '\n' :: rest) : skipFirstLineEnd text = text := by
  unfold skipFirstLineEnd
  split
  · exact absurd rfl (hfeed _)
  · exact absurd rfl (hreturn _)
  · rfl

theorem skipFirstLineEnd_append (htext : skipFirstLineEnd text ≠ [])
    (hreturn : text ≠ ['\r']) :
    skipFirstLineEnd (text ++ tail) = skipFirstLineEnd text ++ tail := by
  by_cases hfeed : ∃ rest, text = '\n' :: rest
  · obtain ⟨rest, rfl⟩ := hfeed
    rfl
  · by_cases hend : ∃ rest, text = '\r' :: '\n' :: rest
    · obtain ⟨rest, rfl⟩ := hend
      rfl
    · rw [not_exists] at hfeed hend
      rw [skipFirstLineEnd_eq_self hfeed hend] at htext ⊢
      apply skipFirstLineEnd_eq_self
      · intro rest hrest
        match text with
        | [] => exact htext rfl
        | c :: text =>
            obtain ⟨rfl, _⟩ := List.cons.inj hrest
            exact hfeed text rfl
      · intro rest hrest
        match text with
        | [] => exact htext rfl
        | [c] =>
            obtain ⟨rfl, _⟩ := List.cons.inj hrest
            exact hreturn rfl
        | c :: d :: text =>
            obtain ⟨rfl, hleft⟩ := List.cons.inj hrest
            obtain ⟨rfl, _⟩ := List.cons.inj hleft
            exact hend text rfl

theorem skipFirstLineEnd_suffix (text : List Char) : skipFirstLineEnd text <:+ text := by
  unfold skipFirstLineEnd
  split
  · exact List.suffix_cons _ _
  · exact (List.suffix_cons _ _).trans (List.suffix_cons _ _)
  · exact List.suffix_refl _

/-- A line end after the opening marks is skipped in both texts. -/
theorem Extends.skipFirstLineEnd {read : List Char → Option (α × List Char)}
    (hread : Extends tail read) (hnil : read [] = none) (hreturn : read ['\r'] = none) :
    Extends tail fun text => read (skipFirstLineEnd text) := by
  intro text result rest hparted hresult
  have htext : Toml.skipFirstLineEnd text ≠ [] := by
    intro htext
    simp only [htext, hnil] at hresult
    cases hresult
  have htext' : text ≠ ['\r'] := by
    rintro rfl
    exact absurd (hreturn.symm.trans hresult) nofun
  obtain ⟨hremains, hwhole⟩ := hread _ _ _
    (hparted.of_suffix (skipFirstLineEnd_suffix text) htext) hresult
  refine ⟨⟨hremains.suffix.trans (skipFirstLineEnd_suffix text), hremains.parted⟩, ?_⟩
  simp only [skipFirstLineEnd_append htext htext', hwhole]

theorem Extends.map {β : Type} {read : List Char → Option (α × List Char)}
    (hread : Extends tail read) (make : α → β) :
    Extends tail fun text => (read text).map fun (result, rest) => (make result, rest) := by
  intro text result rest hparted hresult
  obtain ⟨⟨found, left⟩, hfound, hmake⟩ := Option.map_eq_some_iff.1 hresult
  cases hmake
  obtain ⟨hremains, hwhole⟩ := hread _ _ _ hparted hfound
  refine ⟨hremains, ?_⟩
  simp only [hwhole, Option.map_some]

/-- Three marks open a text of several lines. -/
def OpensLines (text : List Char) : Prop :=
  ∃ mark rest, (mark = '"' ∨ mark = '\'') ∧ text = mark :: mark :: mark :: rest

theorem text?_eq_lineText? (htext : ¬ OpensLines text) : text? text = lineText? text := by
  unfold text?
  split
  · exact absurd ⟨_, _, Or.inl rfl, rfl⟩ htext
  · exact absurd ⟨_, _, Or.inr rfl, rfl⟩ htext
  · rfl

/-- Two marks are a text of their own, and none follows them. -/
theorem not_opensLines_append {content : String} (hparted : Parted text tail)
    (hread : lineText? text = some (content, rest)) (hlines : ¬ OpensLines text) :
    ¬ OpensLines (text ++ tail) := by
  rintro ⟨mark, left, hmark, hwhole⟩
  match text with
  | [] => cases hread
  | [c] =>
      obtain ⟨rfl, _⟩ := List.cons.inj hwhole
      rcases hmark with rfl | rfl
      · cases hread
      · cases hread
  | [c, d] =>
      have hfeed : mark ≠ '\n' := by
        rintro rfl
        rcases hmark with hmark | hmark
        · cases hmark
        · cases hmark
      obtain ⟨rfl, hwhole⟩ := List.cons.inj hwhole
      obtain ⟨rfl, hwhole⟩ := List.cons.inj hwhole
      obtain ⟨more, rfl⟩ := ((hparted.behind hfeed).behind hfeed).head
      exact hfeed (List.cons.inj hwhole).1.symm
  | c :: d :: e :: text =>
      obtain ⟨rfl, hwhole⟩ := List.cons.inj hwhole
      obtain ⟨rfl, hwhole⟩ := List.cons.inj hwhole
      obtain ⟨rfl, _⟩ := List.cons.inj hwhole
      exact hlines ⟨_, text, hmark, rfl⟩

theorem text?_extends (tail : List Char) : Extends tail text? := by
  intro text content rest hparted hread
  by_cases hlines : OpensLines text
  · obtain ⟨mark, left, rfl | rfl, rfl⟩ := hlines
    · have hextends :=
        ((quotedLines?_extends .between tail).skipFirstLineEnd rfl rfl).map String.ofList
      have hleft := ((hparted.behind (by decide)).behind (by decide)).behind (by decide)
      obtain ⟨hremains, hwhole⟩ := hextends _ _ _ hleft hread
      exact ⟨hremains.cons.cons.cons, hwhole⟩
    · have hextends :=
        ((literalLines?_extends tail).skipFirstLineEnd rfl rfl).map String.ofList
      have hleft := ((hparted.behind (by decide)).behind (by decide)).behind (by decide)
      obtain ⟨hremains, hwhole⟩ := hextends _ _ _ hleft hread
      exact ⟨hremains.cons.cons.cons, hwhole⟩
  · rw [text?_eq_lineText? hlines] at hread
    obtain ⟨hremains, hwhole⟩ := (lineText?_spans hread).extend hparted
    refine ⟨hremains, ?_⟩
    rw [text?_eq_lineText? (not_opensLines_append hparted hread hlines), hwhole]

end Texts

section Values

variable {text tail rest : List Char}

theorem skipBlanks_append (hparted : Parted text tail) :
    skipBlanks (text ++ tail) = skipBlanks text ++ tail ∧ Remains text tail (skipBlanks text) :=
  (dropWhile_append isBlankChar (by decide) hparted).2

theorem sign?_eq_some_iff {expected : Char} :
    sign? expected text = some rest ↔ text = expected :: rest := by
  cases text with
  | nil => simp [sign?]
  | cons c text => simp [sign?]

theorem key?_extends (tail : List Char) : Extends tail key? := by
  intro text key rest hparted hread
  obtain ⟨htake, hdrop, hremains⟩ := dropWhile_append isBareKeyChar (by decide) hparted
  unfold key? at hread ⊢
  rw [htake, hdrop]
  split at hread
  · exact (lineText?_spans hread).extend hparted
  · cases hread
    exact ⟨hremains, rfl⟩

/-- A point after a key leads on to the next one. -/
theorem dotted?_succ (fuel : Nat) (text : List Char) :
    dotted? (fuel + 1) text = (key? (skipBlanks text)).bind fun (key, left) =>
      if (skipBlanks left).head? = some '.' then
        (dotted? fuel (skipBlanks left).tail).map fun (path, last, rest) =>
          (key :: path, last, rest)
      else some ([], key, skipBlanks left) := by
  rw [dotted?]
  cases key? (skipBlanks text) with
  | none => rfl
  | some found =>
      simp only [Option.bind_eq_bind, Option.bind_some]
      split
      · rename_i left hleft
        simp only [hleft, List.head?_cons, if_true, List.tail_cons]
        cases dotted? fuel left <;> rfl
      · rename_i hleft
        rw [if_neg]
        · rfl
        · intro hhead
          obtain ⟨left, hpoint⟩ := List.head?_eq_some_iff.1 hhead
          exact hleft left hpoint

theorem dotted?_extends (fuel more : Nat) {path : List String} {key : String}
    (hparted : Parted text tail) (hread : dotted? fuel text = some (path, key, rest)) :
    Remains text tail rest ∧
      dotted? (fuel + more) (text ++ tail) = some (path, key, rest ++ tail) := by
  induction fuel generalizing text path key rest with
  | zero => cases hread
  | succ fuel ih =>
      rw [dotted?_succ] at hread
      obtain ⟨⟨first, left⟩, hfirst, hread⟩ := Option.bind_eq_some_iff.1 hread
      obtain ⟨hblanks, hremains⟩ := skipBlanks_append hparted
      obtain ⟨hleft, hwhole⟩ := key?_extends tail _ _ _ hremains.parted hfirst
      obtain ⟨hblanks', hremains'⟩ := skipBlanks_append hleft.parted
      have hbehind := (hremains.trans hleft).trans hremains'
      rw [Nat.succ_add, dotted?_succ, hblanks, hwhole]
      simp only [Option.bind_some, hblanks'] at hread ⊢
      by_cases hpoint : (skipBlanks left).head? = some '.'
      · obtain ⟨next, hnext⟩ := List.head?_eq_some_iff.1 hpoint
        rw [hnext] at hread hbehind
        simp only [List.head?_cons, if_true, List.tail_cons] at hread
        obtain ⟨⟨keys, last, behind⟩, hkeys, hresult⟩ := Option.map_eq_some_iff.1 hread
        cases hresult
        obtain ⟨hkept, hmore⟩ := ih (hbehind.parted.behind (by decide)) hkeys
        refine ⟨⟨?_, hkept.parted⟩, ?_⟩
        · exact (hkept.suffix.trans (List.suffix_cons _ _)).trans hbehind.suffix
        · simp only [hnext, List.cons_append, List.head?_cons, if_true, List.tail_cons, hmore,
            Option.map_some]
      · rw [if_neg hpoint] at hread
        cases hread
        have hpoint' : (skipBlanks left ++ tail).head? ≠ some '.' := by
          intro hhead
          by_cases hnil : skipBlanks left = []
          · rw [hnil] at hhead hbehind
            obtain ⟨behind, rfl⟩ := hbehind.parted.head
            cases hhead
          · rw [head?_append hnil] at hhead
            exact hpoint hhead
        rw [if_neg hpoint']
        exact ⟨hbehind, rfl⟩

theorem keys?_extends (fuel more : Nat) {path : List String} {key : String}
    (hparted : Parted text tail) (hread : keys? fuel text = some (path, key, rest)) :
    Remains text tail rest ∧
      keys? (fuel + more) (text ++ tail) = some (path, key, rest ++ tail) := by
  obtain ⟨hdotted, hdepth⟩ := Option.filter_eq_some_iff.1 hread
  obtain ⟨hremains, hwhole⟩ := dotted?_extends fuel more hparted hdotted
  exact ⟨hremains, Option.filter_eq_some_iff.2 ⟨hwhole, hdepth⟩⟩

/-- A blank and a digit follow the run of a date. -/
def isDated (run rest : List Char) : Bool :=
  rest.head? == some ' ' && rest.tail.head?.any Char.isDigit && date? run == some []

theorem drop_takeWhile_length (member : Char → Bool) (text : List Char) :
    text.drop (text.takeWhile member).length = text.dropWhile member := by
  induction text with
  | nil => rfl
  | cons c text ih =>
      rw [List.takeWhile_cons, List.dropWhile_cons]
      split
      · exact ih
      · rfl

theorem scalar?_eq (text : List Char) :
    scalar? text =
      if isDated (text.takeWhile isScalarChar) (text.dropWhile isScalarChar) then
        (scalarOf? (text.takeWhile isScalarChar ++
            ' ' :: (text.dropWhile isScalarChar).tail.takeWhile isScalarChar)).map fun value =>
          (value, (text.dropWhile isScalarChar).tail.dropWhile isScalarChar)
      else (scalarOf? (text.takeWhile isScalarChar)).map fun value =>
        (value, text.dropWhile isScalarChar) := by
  unfold scalar?
  generalize text.takeWhile isScalarChar = run
  generalize text.dropWhile isScalarChar = rest
  match rest with
  | [] => rfl
  | [c] =>
      simp only [isDated, List.tail_cons, List.head?_nil, Option.any_none, Bool.and_false,
        Bool.false_and, Bool.false_eq_true, if_false]
  | c :: d :: more =>
      by_cases hc : c = ' '
      · subst hc
        have hdated : isDated run (' ' :: d :: more) = (date? run == some [] && d.isDigit) := by
          simp [isDated, Bool.and_comm]
        simp only [hdated, List.tail_cons]
        split
        · rename_i hdigit
          have hd : isScalarChar d = true := by
            rw [Bool.and_eq_true] at hdigit
            simp [isScalarChar, Char.isAlphanum, hdigit.2]
          simp only [List.takeWhile_cons, List.dropWhile_cons, hd, if_true, List.length_cons,
            Nat.add_sub_cancel, drop_takeWhile_length]
        · rfl
      · have hdated : isDated run (c :: d :: more) = false := by
          simp [isDated, hc]
        simp only [hdated, Bool.false_eq_true, if_false]
        split
        · rename_i hrest
          exact absurd (List.cons.inj hrest).1 hc
        · rfl

theorem isDated_append {run : List Char} (hparted : Parted rest tail) :
    isDated run (rest ++ tail) = isDated run rest := by
  match rest with
  | [] =>
      obtain ⟨more, rfl⟩ := hparted.head
      rfl
  | [c] =>
      by_cases hc : c = ' '
      · subst hc
        obtain ⟨more, rfl⟩ := (hparted.behind (by decide)).head
        rfl
      · simp [isDated, hc]
  | c :: d :: more => rfl

theorem scalar?_extends (tail : List Char) : Extends tail scalar? := by
  intro text value rest hparted hread
  obtain ⟨htake, hdrop, hremains⟩ := dropWhile_append isScalarChar (by decide) hparted
  rw [scalar?_eq] at hread ⊢
  rw [htake, hdrop, isDated_append hremains.parted]
  split at hread
  · rename_i hdated
    obtain ⟨found, hfound, hresult⟩ := Option.map_eq_some_iff.1 hread
    cases hresult
    have hblank : ∃ more, text.dropWhile isScalarChar = ' ' :: more := by
      rw [isDated, Bool.and_eq_true, Bool.and_eq_true, beq_iff_eq] at hdated
      exact List.head?_eq_some_iff.1 hdated.1.1
    obtain ⟨more, hmore⟩ := hblank
    rw [hmore] at hdated hfound hremains ⊢
    obtain ⟨htake', hdrop', hremains'⟩ := dropWhile_append isScalarChar (by decide)
      (hremains.parted.behind (by decide))
    refine ⟨⟨?_, hremains'.parted⟩, ?_⟩
    · exact (hremains'.suffix.trans (List.suffix_cons _ _)).trans hremains.suffix
    · rw [if_pos hdated, List.cons_append, List.tail_cons, htake', hdrop', List.tail_cons]
      rw [List.tail_cons] at hfound
      rw [hfound]
      rfl
  · rename_i hdated
    rw [if_neg hdated]
    obtain ⟨found, hfound, hresult⟩ := Option.map_eq_some_iff.1 hread
    cases hresult
    refine ⟨hremains, ?_⟩
    rw [hfound]
    rfl

end Values

end Toml

end StubSync
