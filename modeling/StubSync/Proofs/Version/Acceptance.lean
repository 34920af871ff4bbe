/-
Every text that the grammar of versions derives is read, as the version that it
spells.

Two derivations of one text differ at most in the part that a separator is
counted to: a label without a number claims the separator behind it.  So each
part is read from what may be left of it, which is all of it or all but the
separator in front.
-/
import StubSync.Proofs.Version.Grammar

namespace StubSync

namespace Version

open Decimal (IsNumber NoDigitAhead)

/-- No label goes on in this text. -/
def EndsLabel (text : List Char) : Prop :=
  ∀ c ∈ text.head?, c ≠ 'c' ∧ c ≠ 'e' ∧ c ≠ 'l' ∧ c ≠ 'v'

/-- No release goes on in this text; nor was it an epoch that ended here. -/
structure EndsRelease (text : List Char) : Prop where
  noDigitAhead : NoDigitAhead text
  no_epoch : ∀ others, text ≠ '!' :: others
  no_segment : ∀ others, text = '.' :: others → NoDigitAhead others

/-- Neither a release nor a label goes on in this text. -/
structure EndsPart (text : List Char) : Prop extends EndsRelease text where
  endsLabel : EndsLabel text

/-- What is left to be read of a text. -/
def IsLeft (left text : List Char) : Prop :=
  left = text ∨ left = skipSeparator text

/-- Labels are made of letters, and each is told apart from the others by what
follows it. -/
structure IsTable {α : Type} (labels : List (List Char × α)) : Prop where
  isLower : ∀ entry ∈ labels, entry.1 ≠ [] ∧ ∀ c ∈ entry.1, c.isLower = true
  reads : ∀ entry ∈ labels, ∀ rest, EndsLabel rest →
    label? labels (entry.1 ++ rest) = some (entry.2, rest)

theorem isLower_of_all {α : Type} {labels : List (List Char × α)}
    (hlabels : labels.all (fun entry => !entry.1.isEmpty && entry.1.all Char.isLower) = true) :
    ∀ entry ∈ labels, entry.1 ≠ [] ∧ ∀ c ∈ entry.1, c.isLower = true := by
  intro entry hentry
  have hlabel := List.all_eq_true.1 hlabels entry hentry
  rw [Bool.and_eq_true, List.all_eq_true] at hlabel
  exact ⟨by simpa using hlabel.1, hlabel.2⟩

theorem isTable_preLabels : IsTable preLabels where
  isLower := isLower_of_all (by decide)
  reads := by
    intro entry hentry rest hrest
    simp only [preLabels, List.mem_cons, List.not_mem_nil, or_false] at hentry
    cases rest with
    | nil => rcases hentry with rfl | rfl | rfl | rfl | rfl | rfl | rfl | rfl <;> rfl
    | cons c others =>
        obtain ⟨_, he, hl, hv⟩ := hrest c rfl
        rcases hentry with rfl | rfl | rfl | rfl | rfl | rfl | rfl | rfl <;>
          simp [label?, preLabels, Text.after?, he.symm, hl.symm, hv.symm]

theorem isTable_postLabels : IsTable postLabels where
  isLower := isLower_of_all (by decide)
  reads := by
    intro entry hentry rest hrest
    simp only [postLabels, List.mem_cons, List.not_mem_nil, or_false] at hentry
    cases rest with
    | nil => rcases hentry with rfl | rfl | rfl <;> rfl
    | cons c others =>
        obtain ⟨_, he, _, _⟩ := hrest c rfl
        rcases hentry with rfl | rfl | rfl <;>
          simp [label?, postLabels, Text.after?, he.symm]

theorem isTable_devLabels : IsTable devLabels where
  isLower := isLower_of_all (by decide)
  reads := by
    intro entry hentry rest _
    simp only [devLabels, List.mem_cons, List.not_mem_nil, or_false] at hentry
    subst hentry
    simp [label?, devLabels, Text.after?]

theorem not_isSeparator_of_isLower {c : Char} (hc : c.isLower = true) :
    isSeparator c = false := by
  apply Bool.eq_false_iff.2
  intro hseparator
  rw [isLower_ne_separator hseparator] at hc
  cases hc

theorem not_isSeparator_of_isDigit {c : Char} (hc : c.isDigit = true) :
    isSeparator c = false := by
  apply Bool.eq_false_iff.2
  intro hseparator
  simp only [isSeparator, Bool.or_eq_true, beq_iff_eq] at hseparator
  rcases hseparator with (rfl | rfl) | rfl <;> exact absurd hc (by decide)

theorem not_isDigit_of_isLower {c : Char} (hc : c.isLower = true) : c.isDigit = false := by
  apply Bool.eq_false_iff.2
  intro hdigit
  rw [isLower_ne_digit hdigit] at hc
  cases hc

theorem skipSeparator_cons {c : Char} (rest : List Char) (hc : isSeparator c = false) :
    skipSeparator (c :: rest) = c :: rest := by
  simp [skipSeparator, hc]

theorem skipSeparator_number {run : List Char} {n : Nat} (hrun : IsNumber run n)
    (rest : List Char) : skipSeparator (run ++ rest) = run ++ rest := by
  obtain ⟨c, others, rfl, hc⟩ := hrun.exists_cons
  exact skipSeparator_cons _ (not_isSeparator_of_isDigit hc)

theorem IsGap.skipSeparator {gap : List Char} (hgap : IsGap gap) {c : Char}
    (hc : isSeparator c = false) (rest : List Char) :
    skipSeparator (gap ++ c :: rest) = c :: rest := by
  rcases hgap with rfl | ⟨d, hd, rfl⟩
  · exact skipSeparator_cons rest hc
  · simp [Version.skipSeparator, hd]

theorem endsLabel_cons_of_isSeparator {c : Char} (hc : isSeparator c = true)
    (rest : List Char) : EndsLabel (c :: rest) := by
  rintro d ⟨rfl⟩
  simp only [isSeparator, Bool.or_eq_true, beq_iff_eq] at hc
  rcases hc with (rfl | rfl) | rfl <;> decide

theorem endsLabel_cons_of_isDigit {c : Char} (hc : c.isDigit = true)
    (rest : List Char) : EndsLabel (c :: rest) := by
  rintro d ⟨rfl⟩
  refine ⟨?_, ?_, ?_, ?_⟩ <;> rintro rfl <;> exact absurd hc (by decide)

/-- A label is never followed by what would make a longer one of it. -/
theorem endsLabel_append {gap run rest : List Char} {n : Nat} (hgap : IsGap gap)
    (hrun : IsCount run n) (hrest : EndsLabel rest) : EndsLabel (gap ++ (run ++ rest)) := by
  rcases hgap with rfl | ⟨c, hc, rfl⟩
  · rcases hrun with ⟨rfl, _⟩ | hnumber
    · exact hrest
    · obtain ⟨c, others, rfl, hc⟩ := hnumber.exists_cons
      exact endsLabel_cons_of_isDigit hc _
  · exact endsLabel_cons_of_isSeparator hc _

section Table

variable {α : Type} {labels : List (List Char × α)} {part rest text : List Char}
  {found : α × Nat}

theorem IsTable.exists_cons (htable : IsTable labels) {label : List Char} {meaning : α}
    (hlabel : (label, meaning) ∈ labels) : ∃ c others, label = c :: others ∧ c.isLower = true := by
  obtain ⟨hne, hlower⟩ := htable.isLower _ hlabel
  obtain ⟨c, others, rfl⟩ := List.exists_cons_of_ne_nil hne
  exact ⟨c, others, rfl, hlower c List.mem_cons_self⟩

/-- A number, or its absence, is read behind a label. -/
theorem number?_count {gap run : List Char} {n : Nat} (hgap : IsGap gap) (hrun : IsCount run n)
    (hrest : NoDigitAhead rest)
    (hclaim : gap = [] → run = [] → NoDigitAhead (skipSeparator rest)) :
    ∃ left, (left = rest ∨ gap = [] ∧ run = [] ∧ left = skipSeparator rest) ∧
      (Decimal.number? (skipSeparator (gap ++ (run ++ rest))) = some (n, left) ∨
        n = 0 ∧ left = skipSeparator (gap ++ (run ++ rest)) ∧
          Decimal.number? (skipSeparator (gap ++ (run ++ rest))) = none) := by
  rcases hrun with ⟨rfl, rfl⟩ | hnumber
  · refine ⟨skipSeparator (gap ++ ([] ++ rest)), ?_, Or.inr ⟨rfl, rfl, ?_⟩⟩
    · rcases hgap with rfl | ⟨c, hc, rfl⟩
      · exact Or.inr ⟨rfl, rfl, rfl⟩
      · exact Or.inl (by simp [skipSeparator, hc])
    · rw [Decimal.number?_eq_none_iff]
      rcases hgap with rfl | ⟨c, hc, rfl⟩
      · exact hclaim rfl rfl
      · simpa [skipSeparator, hc] using hrest
  · refine ⟨rest, Or.inl rfl, Or.inl (Decimal.number?_eq_some_iff.2 ⟨run, ?_, hnumber, hrest⟩)⟩
    rcases hgap with rfl | ⟨c, hc, rfl⟩
    · exact skipSeparator_number hnumber rest
    · simp [skipSeparator, hc]

theorem skipSeparator_part (htable : IsTable labels) {before label behind : List Char}
    {meaning : α} (hbefore : IsGap before) (hlabel : (label, meaning) ∈ labels)
    (htext : IsLeft text (before ++ (label ++ behind))) :
    skipSeparator text = label ++ behind := by
  obtain ⟨c, others, rfl, hc⟩ := htable.exists_cons hlabel
  have hseparator := not_isSeparator_of_isLower hc
  have hwhole := hbefore.skipSeparator hseparator (others ++ behind)
  rcases htext with rfl | rfl
  · exact hwhole
  · rw [List.cons_append, hwhole]
    exact skipSeparator_cons _ hseparator

/-- Behind its separator a part starts with a label. -/
theorem SpellsPart.exists_label (htable : IsTable labels) (hpart : SpellsPart labels part found)
    (hrest : EndsLabel rest) (htext : IsLeft text (part ++ rest)) :
    ∃ entry ∈ labels, ∃ behind, EndsLabel behind ∧ skipSeparator text = entry.1 ++ behind := by
  obtain ⟨hbefore, hlabel, hafter, hrun⟩ := hpart
  simp only [List.append_assoc] at htext
  exact ⟨_, hlabel, _, endsLabel_append hafter hrun hrest,
    skipSeparator_part htable hbefore hlabel htext⟩

theorem SpellsPart.noDigitAhead (htable : IsTable labels) (hpart : SpellsPart labels part found)
    (hrest : EndsLabel rest) (htext : IsLeft text (part ++ rest)) :
    NoDigitAhead (skipSeparator text) := by
  obtain ⟨entry, hentry, behind, _, hskip⟩ := hpart.exists_label htable hrest htext
  obtain ⟨c, others, hlabel, hc⟩ := htable.exists_cons hentry
  rw [hskip, hlabel]
  exact Decimal.noDigitAhead_cons _ (not_isDigit_of_isLower hc)

/-- A part is read, with the separator behind it if it ends in its label. -/
theorem labelled?_append (htable : IsTable labels) (hpart : SpellsPart labels part found)
    (hrest : EndsPart rest) (hclaim : EndsInLabel part → NoDigitAhead (skipSeparator rest))
    (htext : IsLeft text (part ++ rest)) :
    ∃ left, labelled? labels text = some (found, left) ∧
      (left = rest ∨ EndsInLabel part ∧ left = skipSeparator rest) := by
  obtain ⟨hbefore, hlabel, hafter, hrun⟩ := hpart
  rename_i before label after run meaning n
  simp only [List.append_assoc] at htext
  have hread : label? labels (skipSeparator text) = some (meaning, after ++ (run ++ rest)) := by
    rw [skipSeparator_part htable hbefore hlabel htext]
    exact htable.reads _ hlabel _ (endsLabel_append hafter hrun hrest.endsLabel)
  have hbare : after = [] → run = [] →
      EndsInLabel (before ++ (label ++ (after ++ run))) := by
    rintro rfl rfl
    obtain ⟨hne, hlower⟩ := htable.isLower _ hlabel
    refine ⟨label.getLast hne, ?_, hlower _ (List.getLast_mem hne)⟩
    simp [List.getLast?_append, List.getLast?_eq_some_getLast hne]
  obtain ⟨left, hleft, hnumber⟩ := number?_count hafter hrun hrest.noDigitAhead
    fun hnoGap hnoRun => hclaim (hbare hnoGap hnoRun)
  refine ⟨left, ?_, ?_⟩
  · rcases hnumber with hnumber | ⟨rfl, rfl, hnumber⟩
    · simp [labelled?, hread, hnumber]
    · simp [labelled?, hread, hnumber]
  · rcases hleft with hleft | ⟨hnoGap, hnoRun, hleft⟩
    · exact Or.inl hleft
    · exact Or.inr ⟨hbare hnoGap hnoRun, hleft⟩

end Table

section Behind

variable {text rest : List Char}

theorem local_cases {found : Option String} (hlabel : Optionally SpellsLocal text found) :
    text = [] ∨ ∃ label, text = '+' :: label := by
  cases hlabel with
  | missing => exact Or.inl rfl
  | there htext =>
      obtain ⟨_⟩ := htext
      exact Or.inr ⟨_, rfl⟩

theorem ending?_local {found : Option String} (hlabel : Optionally SpellsLocal text found) :
    ending? text = some found := by
  cases hlabel with
  | missing => rfl
  | there htext =>
      obtain ⟨hlabel⟩ := htext
      have hgrouped : isLocalLabel _ = true := Text.isGrouped_iff.2 hlabel
      simp [ending?, hgrouped]

theorem endsPart_local {found : Option String} (hlabel : Optionally SpellsLocal text found) :
    EndsPart text := by
  rcases local_cases hlabel with rfl | ⟨label, rfl⟩
  · exact ⟨⟨nofun, nofun, nofun⟩, nofun⟩
  · refine ⟨⟨Decimal.noDigitAhead_cons _ (by decide), nofun, nofun⟩, ?_⟩
    rintro c ⟨rfl⟩
    decide

theorem endsRelease_part {α : Type} {labels : List (List Char × α)} {part : List Char}
    {found : α × Nat} (htable : IsTable labels) (hpart : SpellsPart labels part found)
    (hrest : EndsLabel rest) : EndsRelease (part ++ rest) := by
  have hnumber := hpart.noDigitAhead htable hrest (Or.inl rfl)
  obtain ⟨hbefore, hlabel, hafter, hrun⟩ := hpart
  obtain ⟨c, others, rfl, hc⟩ := htable.exists_cons hlabel
  rcases hbefore with rfl | ⟨d, hd, rfl⟩
  · refine ⟨Decimal.noDigitAhead_cons _ (not_isDigit_of_isLower hc), ?_, ?_⟩
    · rintro others ⟨rfl, _⟩
      exact absurd hc (by decide)
    · rintro others ⟨rfl, _⟩
      exact absurd hc (by decide)
  · simp only [List.cons_append, skipSeparator, hd, if_true] at hnumber
    refine ⟨Decimal.noDigitAhead_cons _ ?_, ?_, ?_⟩
    · apply Bool.eq_false_iff.2
      intro hdigit
      rw [not_isSeparator_of_isDigit hdigit] at hd
      cases hd
    · rintro others ⟨rfl, _⟩
      exact absurd hd (by decide)
    · rintro others heq
      rw [← (List.cons.inj heq).2]
      exact hnumber

theorem endsPart_part {α : Type} {labels : List (List Char × α)} {part : List Char}
    {found : α × Nat} (htable : IsTable labels)
    (hlabels : ∀ entry ∈ labels, EndsLabel entry.1) (hpart : SpellsPart labels part found)
    (hrest : EndsLabel rest) : EndsPart (part ++ rest) := by
  refine ⟨endsRelease_part htable hpart hrest, ?_⟩
  obtain ⟨hbefore, hlabel, hafter, hrun⟩ := hpart
  rcases hbefore with rfl | ⟨d, hd, rfl⟩
  · obtain ⟨c, others, rfl, _⟩ := htable.exists_cons hlabel
    rintro d ⟨rfl⟩
    exact hlabels _ hlabel c rfl
  · exact endsLabel_cons_of_isSeparator hd _

end Behind

section Parts

variable {text preText postText devText labelText : List Char} {pre : Option (Phase × Nat)}
  {post dev : Option Nat} {label : Option String}

theorem eq_of_isLeft_local (hlabel : Optionally SpellsLocal labelText label)
    (htext : IsLeft text labelText) : text = labelText := by
  rcases htext with rfl | rfl
  · rfl
  · rcases local_cases hlabel with rfl | ⟨rest, rfl⟩ <;> rfl

theorem endsPart_dev (hdev : Optionally SpellsDev devText dev)
    (hlabel : Optionally SpellsLocal labelText label) : EndsPart (devText ++ labelText) := by
  cases hdev with
  | missing => exact endsPart_local hlabel
  | there hpart =>
      exact endsPart_part isTable_devLabels (by simp [devLabels, EndsLabel]) hpart
        (endsPart_local hlabel).endsLabel

theorem noDigitAhead_dev (hdev : Optionally SpellsDev devText dev)
    (hlabel : Optionally SpellsLocal labelText label)
    (htext : IsLeft text (devText ++ labelText)) : NoDigitAhead (skipSeparator text) := by
  cases hdev with
  | missing =>
      rw [eq_of_isLeft_local hlabel htext, eq_of_isLeft_local hlabel (Or.inr rfl)]
      exact (endsPart_local hlabel).noDigitAhead
  | there hpart =>
      exact hpart.noDigitAhead isTable_devLabels (endsPart_local hlabel).endsLabel htext

/-- No part with another label than that of a development release starts here. -/
theorem labelled?_dev {α : Type} {labels : List (List Char × α)}
    (hnil : label? labels [] = none) (hplus : ∀ rest, label? labels ('+' :: rest) = none)
    (hlabels : ∀ rest, label? labels ("dev".toList ++ rest) = none)
    (hdev : Optionally SpellsDev devText dev) (hlabel : Optionally SpellsLocal labelText label)
    (htext : IsLeft text (devText ++ labelText)) : labelled? labels text = none := by
  have hnone : label? labels (skipSeparator text) = none := by
    cases hdev with
    | missing =>
        rw [eq_of_isLeft_local hlabel htext, eq_of_isLeft_local hlabel (Or.inr rfl)]
        rcases local_cases hlabel with rfl | ⟨rest, rfl⟩
        · exact hnil
        · exact hplus rest
    | there hpart =>
        obtain ⟨entry, hentry, behind, _, hskip⟩ :=
          hpart.exists_label isTable_devLabels (endsPart_local hlabel).endsLabel htext
        rw [hskip, List.mem_singleton.1 hentry]
        exact hlabels behind
  simp [labelled?, hnone]

/-- The development release and all behind it is read. -/
theorem optional_dev (hdev : Optionally SpellsDev devText dev)
    (hlabel : Optionally SpellsLocal labelText label)
    (htext : IsLeft text (devText ++ labelText)) :
    ∃ left, optional dev? text = (dev, left) ∧ ending? left = some label := by
  cases hdev with
  | missing =>
      rw [List.nil_append] at htext
      refine ⟨labelText, ?_, ending?_local hlabel⟩
      rw [eq_of_isLeft_local hlabel htext]
      rcases local_cases hlabel with rfl | ⟨rest, rfl⟩ <;> rfl
  | there hpart =>
      obtain ⟨left, hread, hleft⟩ := labelled?_append isTable_devLabels hpart
        (endsPart_local hlabel) (fun _ => noDigitAhead_dev .missing hlabel (Or.inl rfl)) htext
      rw [eq_of_isLeft_local hlabel (hleft.imp_right And.right)] at hread
      exact ⟨labelText, by simp [optional, dev?, hread], ending?_local hlabel⟩

theorem endsPart_post (hpost : Optionally SpellsPost postText post)
    (hdev : Optionally SpellsDev devText dev) (hlabel : Optionally SpellsLocal labelText label) :
    EndsPart (postText ++ (devText ++ labelText)) := by
  have hend := endsPart_dev hdev hlabel
  cases hpost with
  | missing => exact hend
  | there hpart =>
      cases hpart with
      | hyphenated htext =>
          obtain ⟨run, rfl, _⟩ := htext
          refine ⟨⟨Decimal.noDigitAhead_cons _ (by decide), nofun, nofun⟩, ?_⟩
          rintro c ⟨rfl⟩
          decide
      | labelled hpart =>
          exact endsPart_part isTable_postLabels (by simp [postLabels, EndsLabel]) hpart
            hend.endsLabel

/-- Without a number behind a hyphen a post-release has a label. -/
theorem post?_eq (htext : NoDigitAhead (skipSeparator text)) :
    post? text = (labelled? postLabels text).map fun found => (found.1.2, found.2) := by
  unfold post?
  split
  · rename_i rest
    have hnone : Decimal.number? rest = none := Decimal.number?_eq_none_iff.2 htext
    rw [hnone]
  · rfl

theorem optional_post (hpost : Optionally SpellsPost postText post)
    (hdev : Optionally SpellsDev devText dev) (hlabel : Optionally SpellsLocal labelText label)
    (htext : IsLeft text (postText ++ (devText ++ labelText)))
    (hwhole : ∀ n, IsHyphenated postText n → text = postText ++ (devText ++ labelText)) :
    ∃ left, optional post? text = (post, left) ∧ IsLeft left (devText ++ labelText) := by
  have hend := endsPart_dev hdev hlabel
  cases hpost with
  | missing =>
      refine ⟨text, ?_, htext⟩
      have hread : post? text = none := by
        rw [post?_eq (noDigitAhead_dev hdev hlabel htext),
          labelled?_dev rfl (fun _ => rfl) (fun _ => rfl) hdev hlabel htext]
        rfl
      simp [optional, hread]
  | there hpart =>
      cases hpart with
      | hyphenated hhyphen =>
          rw [hwhole _ hhyphen]
          obtain ⟨run, rfl, hrun⟩ := hhyphen
          refine ⟨_, ?_, Or.inl rfl⟩
          have hnumber := Decimal.number?_eq_some_iff.2 ⟨run, rfl, hrun, hend.noDigitAhead⟩
          simp [optional, post?, hnumber]
      | labelled hpart =>
          obtain ⟨left, hread, hleft⟩ := labelled?_append isTable_postLabels hpart hend
            (fun _ => noDigitAhead_dev hdev hlabel (Or.inl rfl)) htext
          have hpost := post?_eq
            (hpart.noDigitAhead isTable_postLabels hend.endsLabel htext)
          exact ⟨left, by simp [optional, hpost, hread], hleft.imp_right And.right⟩

/-- No pre-release starts where a post-release or what follows it does. -/
theorem labelled?_post (hpost : Optionally SpellsPost postText post)
    (hdev : Optionally SpellsDev devText dev) (hlabel : Optionally SpellsLocal labelText label) :
    labelled? preLabels (postText ++ (devText ++ labelText)) = none := by
  have hend := endsPart_dev hdev hlabel
  cases hpost with
  | missing => exact labelled?_dev rfl (fun _ => rfl) (fun _ => rfl) hdev hlabel (Or.inl rfl)
  | there hpart =>
      have hnone : label? preLabels (skipSeparator (postText ++ (devText ++ labelText))) =
          none := by
        cases hpart with
        | hyphenated htext =>
            obtain ⟨run, rfl, hrun⟩ := htext
            obtain ⟨c, others, rfl, hc⟩ := hrun.exists_cons
            have hletter : ∀ d : Char, d.isDigit = false → d ≠ c := by
              rintro d hd rfl
              rw [hd] at hc
              cases hc
            simp [skipSeparator, isSeparator, label?, preLabels, Text.after?,
              hletter 'a', hletter 'b', hletter 'p', hletter 'r', hletter 'c']
        | labelled hpart =>
            obtain ⟨entry, hentry, behind, hbehind, hskip⟩ :=
              hpart.exists_label isTable_postLabels hend.endsLabel (Or.inl rfl)
            rw [hskip]
            simp only [postLabels, List.mem_cons, List.not_mem_nil, or_false] at hentry
            cases behind with
            | nil => rcases hentry with rfl | rfl | rfl <;> rfl
            | cons c others =>
                obtain ⟨hc, _⟩ := hbehind c rfl
                rcases hentry with rfl | rfl | rfl <;>
                  simp [label?, preLabels, Text.after?, hc.symm]
      simp [labelled?, hnone]

theorem endsRelease_pre (hpre : Optionally (SpellsPart preLabels) preText pre)
    (hpost : Optionally SpellsPost postText post) (hdev : Optionally SpellsDev devText dev)
    (hlabel : Optionally SpellsLocal labelText label) :
    EndsRelease (preText ++ (postText ++ (devText ++ labelText))) := by
  have hbehind := endsPart_post hpost hdev hlabel
  cases hpre with
  | missing => exact hbehind.toEndsRelease
  | there hpart => exact endsRelease_part isTable_preLabels hpart hbehind.endsLabel

/-- The pre-release is read; a hyphen behind its label is its own. -/
theorem optional_pre (hpre : Optionally (SpellsPart preLabels) preText pre)
    (hpost : Optionally SpellsPost postText post) (hdev : Optionally SpellsDev devText dev)
    (hlabel : Optionally SpellsLocal labelText label)
    (hhyphen : EndsInLabel preText → ∀ n, ¬ IsHyphenated postText n) :
    ∃ left, optional (labelled? preLabels) (preText ++ (postText ++ (devText ++ labelText))) =
        (pre, left) ∧ IsLeft left (postText ++ (devText ++ labelText)) ∧
      ∀ n, IsHyphenated postText n → left = postText ++ (devText ++ labelText) := by
  have hbehind := endsPart_post hpost hdev hlabel
  cases hpre with
  | missing =>
      refine ⟨_, ?_, Or.inl rfl, fun _ _ => rfl⟩
      simp [optional, labelled?_post hpost hdev hlabel]
  | there hpart =>
      have hclaim : EndsInLabel preText →
          NoDigitAhead (skipSeparator (postText ++ (devText ++ labelText))) := by
        intro hends
        cases hpost with
        | missing => exact noDigitAhead_dev hdev hlabel (Or.inl rfl)
        | there hpost =>
            cases hpost with
            | hyphenated htext => exact absurd htext (hhyphen hends _)
            | labelled hpost =>
                exact hpost.noDigitAhead isTable_postLabels
                  (endsPart_dev hdev hlabel).endsLabel (Or.inl rfl)
      obtain ⟨left, hread, hleft⟩ :=
        labelled?_append isTable_preLabels hpart hbehind hclaim (Or.inl rfl)
      refine ⟨left, by simp [optional, hread], hleft.imp_right And.right, ?_⟩
      intro n hhyphenated
      rcases hleft with hleft | ⟨hends, _⟩
      · exact hleft
      · exact absurd hhyphenated (hhyphen hends n)

end Parts

section Release

variable {text rest : List Char}

theorem segments_digit (current : Nat) {c : Char} (hc : c.isDigit = true)
    (rest : List Char) :
    segments current (c :: rest) =
      segments (10 * current + Decimal.digitValue c) rest := by
  have hpoint : c ≠ '.' := by
    rintro rfl
    exact absurd hc (by decide)
  rw [segments.eq_def]
  split
  · rename_i heq
    cases heq
  · rename_i heq
    exact absurd (List.cons.inj heq).1 hpoint
  · rename_i heq
    cases heq
    rw [if_pos hc]

theorem segments_run {run : List Char} (hrun : ∀ c ∈ run, c.isDigit = true)
    (current : Nat) (rest : List Char) :
    segments current (run ++ rest) =
      segments (run.foldl (fun n c => 10 * n + Decimal.digitValue c) current) rest := by
  induction run generalizing current with
  | nil => rfl
  | cons c run ih =>
      rw [List.cons_append, segments_digit current (hrun c List.mem_cons_self),
        ih fun d hd => hrun d (List.mem_cons_of_mem c hd), List.foldl_cons]

theorem segments_end (hrest : EndsRelease rest) (current : Nat) :
    segments current rest = ([current], rest) := by
  cases rest with
  | nil => rw [segments]
  | cons c others =>
      have hc : c.isDigit = false := hrest.noDigitAhead c rfl
      rw [segments.eq_def]
      split
      · rename_i heq
        cases heq
      · rename_i d later heq
        cases heq
        have hd : d.isDigit = false := hrest.no_segment _ rfl d rfl
        simp only [hd, Bool.false_eq_true, if_false]
      · rename_i heq
        cases heq
        simp only [hc, Bool.false_eq_true, if_false]

/-- The digits of a number at the front of a text make one segment. -/
theorem release?_number {run : List Char} {n : Nat} (hrun : IsNumber run n)
    (rest : List Char) : release? (run ++ rest) = some (segments n rest) := by
  have hvalue := hrun.value_eq
  have hdigits := hrun.isDigit
  obtain ⟨c, others, rfl, hc⟩ := hrun.exists_cons
  have hothers : ∀ d ∈ others, d.isDigit = true :=
    fun d hd => hdigits d (List.mem_cons_of_mem c hd)
  simp only [Decimal.value, List.foldl_cons, Nat.mul_zero, Nat.zero_add] at hvalue
  simp only [List.cons_append, release?, hc, if_true, segments_run hothers, hvalue]

theorem segments_point (current : Nat) {others : List Nat}
    (hread : release? text = some (others, rest)) :
    segments current ('.' :: text) = (current :: others, rest) := by
  unfold release? at hread
  split at hread
  · split at hread
    · rename_i c behind hc
      simp only [segments, hc, if_true, Option.some.inj hread]
    · cases hread
  · cases hread

/-- A release is read up to where it ends. -/
theorem release?_append {release : List Nat} (hrelease : SpellsRelease text release)
    (hrest : EndsRelease rest) : release? (text ++ rest) = some (release, rest) := by
  induction hrelease with
  | last hrun => rw [release?_number hrun, segments_end hrest]
  | more hrun hothers ih =>
      rw [List.append_assoc, release?_number hrun, List.cons_append, segments_point _ ih]

theorem SpellsRelease.exists_number {release : List Nat} (hrelease : SpellsRelease text release) :
    ∃ run n behind, text = run ++ behind ∧ IsNumber run n ∧
      (behind = [] ∨ ∃ more, behind = '.' :: more) := by
  cases hrelease with
  | last hrun => exact ⟨_, _, [], (List.append_nil _).symm, hrun, Or.inl rfl⟩
  | more hrun hothers => exact ⟨_, _, _, rfl, hrun, Or.inr ⟨_, rfl⟩⟩

/-- The first segment of a release is not taken for an epoch. -/
theorem epoch?_release {release : List Nat} (hrelease : SpellsRelease text release)
    (hrest : EndsRelease rest) : epoch? (text ++ rest) = none := by
  obtain ⟨run, n, behind, rfl, hrun, hbehind⟩ := hrelease.exists_number
  have hends : NoDigitAhead (behind ++ rest) ∧ ∀ others, behind ++ rest ≠ '!' :: others := by
    rcases hbehind with rfl | ⟨more, rfl⟩
    · exact ⟨hrest.noDigitAhead, hrest.no_epoch⟩
    · exact ⟨Decimal.noDigitAhead_cons _ (by decide), nofun⟩
  have hnumber := Decimal.number?_eq_some_iff.2
    ⟨run, List.append_assoc run behind rest, hrun, hends.1⟩
  unfold epoch?
  split
  · rename_i m others heq
    rw [hnumber, Option.some.injEq, Prod.mk.injEq] at heq
    exact absurd heq.2 (hends.2 others)
  · rfl

theorem optional_epoch {epoch : List Char} {n : Nat} {release : List Nat}
    (hepoch : SpellsEpoch epoch n) (hrelease : SpellsRelease text release)
    (hrest : EndsRelease rest) :
    ∃ found : Option Nat, found.getD 0 = n ∧
      optional epoch? (epoch ++ (text ++ rest)) = (found, text ++ rest) := by
  cases hepoch with
  | missing => exact ⟨none, rfl, by simp [optional, epoch?_release hrelease hrest]⟩
  | there hrun =>
      have hnumber := Decimal.number?_eq_some_iff.2
        ⟨_, rfl, hrun, Decimal.noDigitAhead_cons (text ++ rest) (c := '!') (by decide)⟩
      exact ⟨some n, rfl, by simp [optional, epoch?, hnumber]⟩

/-- A version starts with a digit. -/
theorem exists_digit_of_release {epoch : List Char} {n : Nat} {release : List Nat}
    (hepoch : SpellsEpoch epoch n) (hrelease : SpellsRelease text release) (rest : List Char) :
    ∃ c others, epoch ++ (text ++ rest) = c :: others ∧ c.isDigit = true := by
  cases hepoch with
  | missing =>
      obtain ⟨run, m, behind, rfl, hrun, _⟩ := hrelease.exists_number
      obtain ⟨c, others, rfl, hc⟩ := hrun.exists_cons
      exact ⟨c, _, rfl, hc⟩
  | there hrun =>
      obtain ⟨c, others, rfl, hc⟩ := hrun.exists_cons
      exact ⟨c, _, rfl, hc⟩

end Release

theorem ofSpelling?_of_spells {text : List Char} {version : Version}
    (hspells : Spells text version) : ofSpelling? text = some version := by
  obtain ⟨hlead, hepoch, hrelease, hpre, hpost, hdev, hlabel, hhyphen⟩ := hspells
  rename_i lead epoch release pre post dev label
  have hbehind := endsRelease_pre hpre hpost hdev hlabel
  have hstart : behindLead (lead ++ (epoch ++ (release ++ (pre ++ (post ++ (dev ++ label)))))) =
      epoch ++ (release ++ (pre ++ (post ++ (dev ++ label)))) := by
    rcases hlead with rfl | rfl
    · obtain ⟨c, others, heq, hc⟩ := exists_digit_of_release hepoch hrelease
        (pre ++ (post ++ (dev ++ label)))
      rw [List.nil_append, heq]
      unfold behindLead
      split
      · rename_i hv
        rw [(List.cons.inj hv).1] at hc
        exact absurd hc (by decide)
      · rfl
    · rfl
  obtain ⟨found, hzero, hepochRead⟩ := optional_epoch hepoch hrelease hbehind
  obtain ⟨atDev, hpreRead, hleft, hwhole⟩ := optional_pre hpre hpost hdev hlabel hhyphen
  obtain ⟨atEnd, hpostRead, hleft⟩ := optional_post hpost hdev hlabel hleft hwhole
  obtain ⟨last, hdevRead, hlabelRead⟩ := optional_dev hdev hlabel hleft
  rw [ofSpelling?_eq_some_iff, hstart]
  exact .parts hepochRead hzero.symm (release?_append hrelease hbehind) hpreRead hpostRead
    hdevRead hlabelRead

/-- Exactly the texts of the grammar are read, each as the version that it
spells. -/
theorem ofSpelling?_iff {text : List Char} {version : Version} :
    ofSpelling? text = some version ↔ Spells text version :=
  ⟨spells_of_ofSpelling?, ofSpelling?_of_spells⟩

end Version

end StubSync
