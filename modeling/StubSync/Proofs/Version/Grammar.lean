/-
The grammar of versions, and a derivation of every text that is read.

A derivation says of every part of a text which characters spell it.
-/
import StubSync.Proofs.Text.Decimal
import StubSync.Proofs.Text.Pieces
import StubSync.Version.Reader

namespace StubSync

namespace Version

open Decimal (IsNumber NoDigitAhead)

section Grammar

/-- At most one separator. -/
def IsGap (gap : List Char) : Prop :=
  gap = [] ∨ ∃ c, isSeparator c = true ∧ gap = [c]

/-- A number that counts as zero when it is missing. -/
def IsCount (run : List Char) (n : Nat) : Prop :=
  (run = [] ∧ n = 0) ∨ IsNumber run n

/-- A label and a number, each with a separator in front of it or not. -/
inductive SpellsPart {α : Type} (labels : List (List Char × α)) : List Char → α × Nat → Prop
  | part {before label after run : List Char} {meaning : α} {n : Nat} (hbefore : IsGap before)
      (hlabel : (label, meaning) ∈ labels) (hafter : IsGap after) (hrun : IsCount run n) :
      SpellsPart labels (before ++ (label ++ (after ++ run))) (meaning, n)

/-- A hyphen and a number, which may stand for a post-release. -/
def IsHyphenated (text : List Char) (n : Nat) : Prop :=
  ∃ run, text = '-' :: run ∧ IsNumber run n

inductive SpellsPost : List Char → Nat → Prop
  | hyphenated {text : List Char} {n : Nat} (htext : IsHyphenated text n) : SpellsPost text n
  | labelled {text : List Char} {n : Nat} (hpart : SpellsPart postLabels text ((), n)) :
      SpellsPost text n

def SpellsDev (text : List Char) (n : Nat) : Prop :=
  SpellsPart devLabels text ((), n)

/-- A local label is kept as it is. -/
inductive SpellsLocal : List Char → String → Prop
  | label {label : List Char} (hlabel : Text.Grouped isLabelChar isSeparator label) :
      SpellsLocal ('+' :: label) (String.ofList label)

/-- A missing epoch is zero. -/
inductive SpellsEpoch : List Char → Nat → Prop
  | missing : SpellsEpoch [] 0
  | there {run : List Char} {n : Nat} (hrun : IsNumber run n) : SpellsEpoch (run ++ ['!']) n

/-- Numbers with points between them. -/
inductive SpellsRelease : List Char → List Nat → Prop
  | last {run : List Char} {n : Nat} (hrun : IsNumber run n) : SpellsRelease run [n]
  | more {run text : List Char} {n : Nat} {others : List Nat} (hrun : IsNumber run n)
      (htext : SpellsRelease text others) : SpellsRelease (run ++ '.' :: text) (n :: others)

/-- A part that may be missing. -/
inductive Optionally {α : Type} (spells : List Char → α → Prop) : List Char → Option α → Prop
  | missing : Optionally spells [] none
  | there {text : List Char} {found : α} (htext : spells text found) :
      Optionally spells text (some found)

/-- The text ends in a letter, which belongs to a label. -/
def EndsInLabel (text : List Char) : Prop :=
  ∃ c ∈ text.getLast?, c.isLower = true

/-- A normalised text spells a version.  A hyphen and a number behind the label
of a pre-release are the number of the pre-release and no post-release. -/
inductive Spells : List Char → Version → Prop
  | parts {version : Version} {lead epoch release pre post dev label : List Char}
      (hlead : lead = [] ∨ lead = ['v'])
      (hepoch : SpellsEpoch epoch version.epoch)
      (hrelease : SpellsRelease release version.release)
      (hpre : Optionally (SpellsPart preLabels) pre version.pre)
      (hpost : Optionally SpellsPost post version.post)
      (hdev : Optionally SpellsDev dev version.dev)
      (hlabel : Optionally SpellsLocal label version.localLabel)
      (hhyphen : EndsInLabel pre → ∀ n, ¬ IsHyphenated post n) :
      Spells (lead ++ (epoch ++ (release ++ (pre ++ (post ++ (dev ++ label)))))) version

end Grammar

section Ends

theorem isLower_ne_separator {c : Char} (hc : isSeparator c = true) : c.isLower = false := by
  simp only [isSeparator, Bool.or_eq_true, beq_iff_eq] at hc
  rcases hc with (rfl | rfl) | rfl <;> decide

theorem isLower_ne_digit {c : Char} (hc : c.isDigit = true) : c.isLower = false := by
  have hdigit : (decide (48 ≤ c.toNat) && decide (c.toNat ≤ 57)) = true := hc
  have hrange : c.isLower = (decide (97 ≤ c.toNat) && decide (c.toNat ≤ 122)) := rfl
  rw [Bool.and_eq_true, decide_eq_true_eq, decide_eq_true_eq] at hdigit
  rw [hrange, Bool.and_eq_false_iff, decide_eq_false_iff_not]
  omega

theorem not_endsInLabel_gap (front : List Char) {c : Char} (hc : isSeparator c = true) :
    ¬ EndsInLabel (front ++ [c]) := by
  rintro ⟨d, hd, hlower⟩
  rw [List.getLast?_append, List.getLast?_singleton] at hd
  cases hd
  rw [isLower_ne_separator hc] at hlower
  cases hlower

theorem not_endsInLabel_number (front : List Char) {run : List Char} {n : Nat}
    (hrun : IsNumber run n) : ¬ EndsInLabel (front ++ run) := by
  rintro ⟨d, hd, hlower⟩
  have hlast := List.getLast?_eq_some_getLast hrun.ne_nil
  rw [List.getLast?_append, hlast] at hd
  cases hd
  rw [isLower_ne_digit (hrun.isDigit _ (List.getLast_mem hrun.ne_nil))] at hlower
  cases hlower

end Ends

section Reading

/-- The text behind the letter that may stand in front of a version. -/
def behindLead (text : List Char) : List Char :=
  match text with
  | 'v' :: rest => rest
  | _ => text

theorem exists_lead (text : List Char) :
    ∃ lead, (lead = [] ∨ lead = ['v']) ∧ text = lead ++ behindLead text := by
  unfold behindLead
  split
  · exact ⟨['v'], Or.inr rfl, rfl⟩
  · exact ⟨[], Or.inl rfl, rfl⟩

/-- The parts of a version are read one after the other. -/
inductive IsRead (version : Version) : List Char → Prop
  | parts {text atRelease atPre atPost atDev atEnd : List Char} {epoch : Option Nat}
      (hepoch : optional epoch? text = (epoch, atRelease))
      (hzero : version.epoch = epoch.getD 0)
      (hrelease : release? atRelease = some (version.release, atPre))
      (hpre : optional (labelled? preLabels) atPre = (version.pre, atPost))
      (hpost : optional post? atPost = (version.post, atDev))
      (hdev : optional dev? atDev = (version.dev, atEnd))
      (hlabel : ending? atEnd = some version.localLabel) : IsRead version text

theorem ofSpelling?_eq_some_iff {text : List Char} {version : Version} :
    ofSpelling? text = some version ↔ IsRead version (behindLead text) := by
  have hform : ofSpelling? text = (release? (optional epoch? (behindLead text)).2).bind
      fun found =>
        (ending? (optional dev? (optional post?
          (optional (labelled? preLabels) found.2).2).2).2).bind fun label =>
            some ⟨(optional epoch? (behindLead text)).1.getD 0, found.1,
              (optional (labelled? preLabels) found.2).1,
              (optional post? (optional (labelled? preLabels) found.2).2).1,
              (optional dev? (optional post? (optional (labelled? preLabels) found.2).2).2).1,
              label⟩ := rfl
  rw [hform]
  constructor
  · intro hread
    obtain ⟨⟨release, atPre⟩, hrelease, hread⟩ := Option.bind_eq_some_iff.1 hread
    obtain ⟨label, hlabel, hread⟩ := Option.bind_eq_some_iff.1 hread
    cases hread
    exact .parts rfl rfl hrelease rfl rfl rfl hlabel
  · rintro ⟨hepoch, hzero, hrelease, hpre, hpost, hdev, hlabel⟩
    simp only [hepoch, hrelease, hpre, hpost, hdev, hlabel, Option.bind_some, ← hzero]

end Reading

section Sound

variable {α : Type} {labels : List (List Char × α)} {text rest : List Char}

theorem isGap_of_skipSeparator (text : List Char) :
    ∃ gap, IsGap gap ∧ text = gap ++ skipSeparator text := by
  cases text with
  | nil => exact ⟨[], Or.inl rfl, rfl⟩
  | cons c others =>
      by_cases hc : isSeparator c = true
      · exact ⟨[c], Or.inr ⟨c, hc, rfl⟩, by simp [skipSeparator, hc]⟩
      · exact ⟨[], Or.inl rfl, by simp [skipSeparator, hc]⟩

theorem mem_of_label? {meaning : α} (hread : label? labels text = some (meaning, rest)) :
    ∃ label, (label, meaning) ∈ labels ∧ text = label ++ rest := by
  obtain ⟨⟨label, found⟩, hmem, hlabel⟩ := List.exists_of_findSome?_eq_some hread
  obtain ⟨left, hleft, hsame⟩ := Option.map_eq_some_iff.1 hlabel
  cases hsame
  exact ⟨label, hmem, Text.after?_eq_some_iff.1 hleft⟩

/-- A label without a number has claimed the separator behind it. -/
theorem spellsPart_of_labelled? {found : α × Nat}
    (hread : labelled? labels text = some (found, rest)) :
    ∃ part, text = part ++ rest ∧ SpellsPart labels part found ∧
      (EndsInLabel part → skipSeparator rest = rest) := by
  obtain ⟨⟨meaning, behind⟩, hlabel, hread⟩ := Option.bind_eq_some_iff.1 hread
  obtain ⟨label, hmem, hbehind⟩ := mem_of_label? hlabel
  obtain ⟨before, hbefore, htext⟩ := isGap_of_skipSeparator text
  obtain ⟨after, hafter, hgap⟩ := isGap_of_skipSeparator behind
  rw [hbehind] at htext
  dsimp only at hread
  split at hread
  · rename_i n left hnumber
    cases hread
    obtain ⟨run, hrun, hnumber, hleft⟩ := Decimal.number?_eq_some_iff.1 hnumber
    refine ⟨_, ?_, .part hbefore hmem hafter (Or.inr hnumber), ?_⟩
    · rw [htext, hgap, hrun]
      simp only [List.append_assoc]
    · intro hends
      simp only [← List.append_assoc] at hends
      exact absurd hends (not_endsInLabel_number _ hnumber)
  · cases hread
    refine ⟨_, ?_, .part hbefore hmem hafter (Or.inl ⟨rfl, rfl⟩), ?_⟩
    · rw [List.append_nil, htext, List.append_assoc, List.append_assoc, ← hgap]
    · intro hends
      rcases hafter with rfl | ⟨c, hc, rfl⟩
      · rw [List.nil_append] at hgap
        rw [← hgap, ← hgap]
      · simp only [List.append_nil, ← List.append_assoc] at hends
        exact absurd hends (not_endsInLabel_gap _ hc)

theorem spellsPost_of_post? {n : Nat} (hread : post? text = some (n, rest)) :
    ∃ part, text = part ++ rest ∧ SpellsPost part n := by
  have hlabelled : ∀ {text : List Char},
      (labelled? postLabels text).map (fun found => (found.1.2, found.2)) = some (n, rest) →
      ∃ part, text = part ++ rest ∧ SpellsPost part n := by
    intro text hread
    obtain ⟨⟨⟨_, m⟩, left⟩, hfound, hsame⟩ := Option.map_eq_some_iff.1 hread
    cases hsame
    obtain ⟨part, htext, hpart, _⟩ := spellsPart_of_labelled? hfound
    exact ⟨part, htext, .labelled hpart⟩
  unfold post? at hread
  split at hread
  · split at hread
    · rename_i found hnumber
      cases hread
      obtain ⟨run, rfl, hrun, _⟩ := Decimal.number?_eq_some_iff.1 hnumber
      exact ⟨'-' :: run, rfl, .hyphenated ⟨run, rfl, hrun⟩⟩
    · exact hlabelled hread
  · exact hlabelled hread

theorem spellsDev_of_dev? {n : Nat} (hread : dev? text = some (n, rest)) :
    ∃ part, text = part ++ rest ∧ SpellsDev part n := by
  obtain ⟨⟨⟨_, m⟩, left⟩, hfound, hsame⟩ := Option.map_eq_some_iff.1 hread
  cases hsame
  obtain ⟨part, htext, hpart, _⟩ := spellsPart_of_labelled? hfound
  exact ⟨part, htext, hpart⟩

theorem spellsLocal_of_ending? {found : Option String} (hread : ending? text = some found) :
    Optionally SpellsLocal text found := by
  unfold ending? at hread
  split at hread
  · cases hread
    exact .missing
  · split at hread
    · rename_i hlabel
      cases hread
      exact .there (.label (Text.isGrouped_iff.1 hlabel))
    · cases hread
  · cases hread

theorem spellsEpoch_of_epoch? {n : Nat} (hread : epoch? text = some (n, rest)) :
    ∃ part, text = part ++ rest ∧ SpellsEpoch part n := by
  unfold epoch? at hread
  split at hread
  · rename_i m left hnumber
    cases hread
    obtain ⟨run, rfl, hrun, _⟩ := Decimal.number?_eq_some_iff.1 hnumber
    exact ⟨run ++ ['!'], by simp, .there hrun⟩
  · cases hread

theorem isNumber_digit {c : Char} (hc : c.isDigit = true) :
    IsNumber [c] (Decimal.digitValue c) :=
  ⟨List.cons_ne_nil c [], by simp [hc], by simp [Decimal.value]⟩

theorem isNumber_snoc {run : List Char} {n : Nat} (hrun : IsNumber run n) {c : Char}
    (hc : c.isDigit = true) : IsNumber (run ++ [c]) (10 * n + Decimal.digitValue c) where
  ne_nil := by simp
  isDigit := List.forall_mem_append.2 ⟨hrun.isDigit, by simp [hc]⟩
  value_eq := by
    have hvalue := hrun.value_eq
    simp only [Decimal.value, List.foldl_append, List.foldl_cons, List.foldl_nil] at hvalue ⊢
    rw [hvalue]

/-- The run holds the digits that have been read of the segment at hand. -/
theorem spellsRelease_of_segments {run : List Char} {current : Nat}
    (hrun : IsNumber run current) :
    ∃ part, run ++ text = part ++ (segments current text).2 ∧
      SpellsRelease part (segments current text).1 := by
  fun_induction segments current text generalizing run with
  | case1 current => exact ⟨run, rfl, .last hrun⟩
  | case2 current c rest hc others left hrest ih =>
      obtain ⟨part, htext, hpart⟩ := ih (isNumber_digit hc)
      rw [hrest] at htext hpart
      refine ⟨run ++ '.' :: part, ?_, .more hrun hpart⟩
      rw [List.append_assoc, List.cons_append, ← htext]
      rfl
  | case3 current c rest hc => exact ⟨run, rfl, .last hrun⟩
  | case4 current c rest hpoint hc ih =>
      obtain ⟨part, htext, hpart⟩ := ih (isNumber_snoc hrun hc)
      refine ⟨part, ?_, hpart⟩
      rw [← htext, List.append_assoc, List.singleton_append]
  | case5 current c rest hpoint hc => exact ⟨run, rfl, .last hrun⟩

theorem spellsRelease_of_release? {release : List Nat}
    (hread : release? text = some (release, rest)) :
    ∃ part, text = part ++ rest ∧ SpellsRelease part release := by
  unfold release? at hread
  split at hread
  · split at hread
    · rename_i c others hc
      obtain ⟨part, htext, hpart⟩ := spellsRelease_of_segments (isNumber_digit hc)
      rw [Option.some.inj hread] at htext hpart
      exact ⟨part, htext, hpart⟩
    · cases hread
  · cases hread

/-- An optional part that is not read spells nothing. -/
theorem optionally_of_optional {β : Type} {spells : List Char → β → Prop}
    {read : List Char → Option (β × List Char)} {found : Option β}
    (hsound : ∀ {found rest}, read text = some (found, rest) →
      ∃ part, text = part ++ rest ∧ spells part found)
    (hread : optional read text = (found, rest)) :
    ∃ part, text = part ++ rest ∧ Optionally spells part found := by
  unfold optional at hread
  split at hread
  · rename_i part left hpart
    cases hread
    obtain ⟨part, htext, hpart⟩ := hsound hpart
    exact ⟨part, htext, .there hpart⟩
  · cases hread
    exact ⟨[], rfl, .missing⟩

theorem spellsPre_of_optional {found : Option (Phase × Nat)}
    (hread : optional (labelled? preLabels) text = (found, rest)) :
    ∃ part, text = part ++ rest ∧ Optionally (SpellsPart preLabels) part found ∧
      (EndsInLabel part → skipSeparator rest = rest) := by
  unfold optional at hread
  split at hread
  · rename_i part left hpart
    cases hread
    obtain ⟨part, htext, hpart, hclaim⟩ := spellsPart_of_labelled? hpart
    exact ⟨part, htext, .there hpart, hclaim⟩
  · cases hread
    exact ⟨[], rfl, .missing, fun ⟨c, hc, _⟩ => by cases hc⟩

theorem spells_of_ofSpelling? {version : Version} (hread : ofSpelling? text = some version) :
    Spells text version := by
  obtain ⟨lead, hlead, htext⟩ := exists_lead text
  obtain ⟨hepoch, hzero, hrelease, hpre, hpost, hdev, hlabel⟩ := ofSpelling?_eq_some_iff.1 hread
  obtain ⟨epoch, hepochText, hepoch⟩ := optionally_of_optional spellsEpoch_of_epoch? hepoch
  obtain ⟨release, hreleaseText, hreleased⟩ := spellsRelease_of_release? hrelease
  obtain ⟨pre, hpreText, hpre, hclaim⟩ := spellsPre_of_optional hpre
  obtain ⟨post, hpostText, hpost⟩ := optionally_of_optional spellsPost_of_post? hpost
  obtain ⟨dev, hdevText, hdev⟩ := optionally_of_optional spellsDev_of_dev? hdev
  rw [htext, hepochText, hreleaseText, hpreText, hpostText, hdevText]
  refine .parts hlead ?_ hreleased hpre hpost hdev (spellsLocal_of_ending? hlabel) ?_
  · rw [hzero]
    cases hepoch with
    | missing => exact .missing
    | there htext => exact htext
  · rintro hends n ⟨run, rfl, _⟩
    have hsame := congrArg List.length (hclaim hends)
    rw [hpostText, List.cons_append, skipSeparator, if_pos (by decide)] at hsame
    simp at hsame

end Sound

end Version

end StubSync
