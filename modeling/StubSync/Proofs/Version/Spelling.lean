/-
The canonical spelling of a version is one of its spellings.
-/
import StubSync.Proofs.Version.Acceptance
import StubSync.Version.Printer

namespace StubSync

namespace Version

open Decimal (digits isNumber_digits)

/-- What every version that has been read satisfies. -/
structure WellFormed (version : Version) : Prop where
  release_ne_nil : version.release ≠ []
  isLocalLabel : ∀ label ∈ version.localLabel, isLocalLabel label.toList = true
  fits : version.fits = true

variable {version : Version}

theorem spellsEpoch_spellEpoch (version : Version) :
    SpellsEpoch version.spellEpoch version.epoch := by
  unfold spellEpoch
  split
  · rename_i hzero
    rw [hzero]
    exact .missing
  · exact .there (isNumber_digits version.epoch)

theorem spellsRelease_spellSegments {release : List Nat} (hrelease : release ≠ []) :
    SpellsRelease (spellSegments release) release := by
  fun_induction spellSegments release with
  | case1 => exact absurd rfl hrelease
  | case2 n => exact .last (isNumber_digits n)
  | case3 n others hothers ih => exact .more (isNumber_digits n) (ih hothers)

/-- A part without a separator behind its label. -/
theorem spellsPart_digits {α : Type} {labels : List (List Char × α)} {gap label : List Char}
    {meaning : α} (hgap : IsGap gap) (hlabel : (label, meaning) ∈ labels) (n : Nat) :
    SpellsPart labels (gap ++ (label ++ digits n)) (meaning, n) :=
  .part hgap hlabel (Or.inl rfl) (Or.inr (isNumber_digits n))

theorem isGap_point : IsGap ['.'] :=
  Or.inr ⟨'.', rfl, rfl⟩

theorem optionally_spellPre (version : Version) :
    Optionally (SpellsPart preLabels) version.spellPre version.pre := by
  unfold spellPre
  cases version.pre with
  | none => exact .missing
  | some part =>
      obtain ⟨phase, n⟩ := part
      have hlabel : (Phase.label phase, phase) ∈ preLabels := by
        cases phase <;> decide
      exact .there (spellsPart_digits (Or.inl rfl) hlabel n)

theorem optionally_spellPost (version : Version) :
    Optionally SpellsPost version.spellPost version.post := by
  unfold spellPost
  cases version.post with
  | none => exact .missing
  | some n =>
      have hlabel : ("post".toList, ()) ∈ postLabels := by decide
      exact .there (.labelled (spellsPart_digits isGap_point hlabel n))

theorem optionally_spellDev (version : Version) :
    Optionally SpellsDev version.spellDev version.dev := by
  unfold spellDev
  cases version.dev with
  | none => exact .missing
  | some n =>
      have hlabel : ("dev".toList, ()) ∈ devLabels := by decide
      have hdev : SpellsDev (".dev".toList ++ digits n) n :=
        spellsPart_digits isGap_point hlabel n
      exact .there hdev

theorem optionally_spellLocal
    (hlocal : ∀ label ∈ version.localLabel, isLocalLabel label.toList = true) :
    Optionally SpellsLocal version.spellLocal version.localLabel := by
  unfold spellLocal
  cases hlabel : version.localLabel with
  | none => exact .missing
  | some label =>
      have hspells := SpellsLocal.label (Text.isGrouped_iff.1 (hlocal label hlabel))
      rw [String.ofList_toList] at hspells
      exact .there hspells

/-- The label of a pre-release is never left without its number. -/
theorem not_endsInLabel_spellPre (version : Version) : ¬ EndsInLabel version.spellPre := by
  unfold spellPre
  cases version.pre with
  | none => exact fun ⟨c, hc, _⟩ => by cases hc
  | some part => exact not_endsInLabel_number _ (isNumber_digits part.2)

theorem spells_spell (hwell : version.WellFormed) : Spells version.spell version := by
  have hlead : ([] : List Char) = [] ∨ ([] : List Char) = ['v'] := Or.inl rfl
  have hspells := Spells.parts hlead (spellsEpoch_spellEpoch version)
    (spellsRelease_spellSegments hwell.release_ne_nil) (optionally_spellPre version)
    (optionally_spellPost version) (optionally_spellDev version)
    (optionally_spellLocal hwell.isLocalLabel)
    (fun hends => absurd hends (not_endsInLabel_spellPre version))
  simpa only [spell, List.nil_append, List.append_assoc] using hspells

theorem ofSpelling?_spell (hwell : version.WellFormed) :
    ofSpelling? version.spell = some version :=
  ofSpelling?_iff.2 (spells_spell hwell)

theorem spell_ne_nil (hwell : version.WellFormed) : version.spell ≠ [] := by
  intro hnil
  have hspell := ofSpelling?_spell hwell
  rw [hnil] at hspell
  cases hspell

end Version

end StubSync
