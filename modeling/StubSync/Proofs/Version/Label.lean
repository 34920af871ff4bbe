/-
Where the local label of a version stands in its spelling.

The label stands behind the only `+`, and no other part has a hyphen.  So a
spelling with something added to it that has a hyphen is the spelling of another
version only if it was added to the label.
-/
import StubSync.Proofs.Version.RoundTrip

namespace StubSync

namespace Version

variable {version first second : Version}

theorem toList_toString (version : Version) : (toString version).toList = version.spell :=
  String.toList_ofList

theorem spell_inj (hfirst : first.WellFormed) (hsecond : second.WellFormed) :
    first.spell = second.spell ↔ first = second := by
  constructor
  · intro hspell
    have hread := ofSpelling?_spell hfirst
    rw [hspell, ofSpelling?_spell hsecond] at hread
    exact (Option.some.inj hread).symm
  · intro hsame
    rw [hsame]

theorem not_mem_front {c : Char} (hc : isFront c = false) (version : Version) :
    c ∉ version.front := by
  intro hmem
  rw [isFront_of_mem_front version c hmem] at hc
  cases hc

theorem spell_of_none (hnone : version.localLabel = none) : version.spell = version.front := by
  rw [spell_eq, spellLocal, hnone, List.append_nil]

theorem spell_of_label {label : String} (hlabel : version.localLabel = some label) :
    version.spell = version.front ++ '+' :: label.toList := by
  rw [spell_eq, spellLocal, hlabel]

theorem plus_mem_spell_iff (version : Version) :
    '+' ∈ version.spell ↔ version.localLabel ≠ none := by
  cases hlabel : version.localLabel with
  | none =>
      rw [spell_of_none hlabel]
      simpa using not_mem_front (by decide) version
  | some label =>
      rw [spell_of_label hlabel]
      simp

/-- What is left of a version without its local label. -/
def unlabelled (version : Version) : Version :=
  { version with localLabel := none }

theorem spell_unlabelled (version : Version) : version.unlabelled.spell = version.front :=
  spell_of_none rfl

theorem WellFormed.unlabelled (hwell : version.WellFormed) : version.unlabelled.WellFormed where
  release_ne_nil := hwell.release_ne_nil
  isLocalLabel := nofun
  fits := hwell.fits

theorem eq_of_unlabelled {label : Option String} (hsame : first.unlabelled = second.unlabelled)
    (hlabel : second.localLabel = label) : second = { first with localLabel := label } := by
  cases first
  cases second
  subst hlabel
  simpa [unlabelled, eq_comm] using hsame

/-- Something with a hyphen can only be added to a spelling where there is a local
label. -/
theorem toString_append_eq_iff (hfirst : first.WellFormed) (hsecond : second.WellFormed)
    {more : String} (hhyphen : '-' ∈ more.toList) (hplus : '+' ∉ more.toList) :
    toString first ++ more = toString second ↔
      ∃ label, first.localLabel = some label ∧
        second = { first with localLabel := some (label ++ more) } := by
  rw [← String.toList_inj, String.toList_append, toList_toString, toList_toString]
  constructor
  · intro hspell
    cases hlabel : first.localLabel with
    | none =>
        rw [spell_of_none hlabel] at hspell
        -- The hyphen asks for a label behind it, and that for a `+` before it.
        have hmem : '-' ∈ second.spell := by
          rw [← hspell]
          exact List.mem_append_right _ hhyphen
        have hsome : second.localLabel ≠ none := by
          intro hnone
          rw [spell_of_none hnone] at hmem
          exact not_mem_front (by decide) second hmem
        have hadded := (plus_mem_spell_iff second).2 hsome
        rw [← hspell, List.mem_append] at hadded
        exact (hadded.elim (not_mem_front (by decide) first) hplus).elim
    | some label =>
        rw [spell_of_label hlabel, List.append_assoc, List.cons_append] at hspell
        have hsome : second.localLabel ≠ none := by
          rw [← plus_mem_spell_iff, ← hspell]
          simp
        obtain ⟨other, hother⟩ := Option.ne_none_iff_exists'.1 hsome
        rw [spell_of_label hother] at hspell
        have hfront : first.front = second.front :=
          Text.eq_of_append_mark (not_mem_front (by decide) first)
            (not_mem_front (by decide) second) hspell
        rw [hfront] at hspell
        have hlabels : label.toList ++ more.toList = other.toList :=
          (List.cons.inj (List.append_cancel_left hspell)).2
        rw [← String.toList_append, String.toList_inj] at hlabels
        have hunlabelled : first.unlabelled = second.unlabelled := by
          rw [← spell_inj hfirst.unlabelled hsecond.unlabelled, spell_unlabelled,
            spell_unlabelled, hfront]
        rw [← hlabels] at hother
        exact ⟨label, rfl, eq_of_unlabelled hunlabelled hother⟩
  · rintro ⟨label, hlabel, rfl⟩
    rw [spell_of_label hlabel, spell_of_label rfl, String.toList_append, List.append_assoc,
      List.cons_append]
    rfl

end Version

end StubSync
