/-
What is read of metadata, and which keys it depends on.
-/
import StubSync.Metadata.Reader
import StubSync.Proofs.Toml.Value

namespace StubSync

namespace Metadata

open Toml (exists_of_bind_eq_ok)
open Toml.Entries (AgreeBut HasText)

section Fields

variable {entries left right : Toml.Entries} {key other : String}

theorem ofEntries_eq_ok_iff {fields : Fields} :
    Fields.ofEntries entries = .ok fields ↔
      textField? entries "version" = .ok fields.version ∧
      textField? entries "upstream" = .ok fields.distribution ∧
      textField? entries "max_version" = .ok fields.maxVersion ∧
      textField? entries "obsolete_since" = .ok fields.obsoleteSince ∧
      flagField? entries "no_longer_updated" = .ok fields.noLongerUpdated ∧
      flagField? entries "prerelease" = .ok fields.prerelease := by
  constructor
  · intro hfields
    obtain ⟨version, hversion, hfields⟩ := exists_of_bind_eq_ok hfields
    obtain ⟨distribution, hdistribution, hfields⟩ := exists_of_bind_eq_ok hfields
    obtain ⟨maxVersion, hmaxVersion, hfields⟩ := exists_of_bind_eq_ok hfields
    obtain ⟨obsoleteSince, hobsoleteSince, hfields⟩ := exists_of_bind_eq_ok hfields
    obtain ⟨noLongerUpdated, hnoLongerUpdated, hfields⟩ := exists_of_bind_eq_ok hfields
    obtain ⟨prerelease, hprerelease, hfields⟩ := exists_of_bind_eq_ok hfields
    cases hfields
    exact ⟨hversion, hdistribution, hmaxVersion, hobsoleteSince, hnoLongerUpdated, hprerelease⟩
  · rintro ⟨hversion, hdistribution, hmaxVersion, hobsoleteSince, hnoLongerUpdated, hprerelease⟩
    rw [Fields.ofEntries, hversion, hdistribution, hmaxVersion, hobsoleteSince,
      hnoLongerUpdated, hprerelease]
    rfl

theorem textField?_unique {text text' : Option String} (hagree : AgreeBut key left right)
    (hleft : textField? left other = .ok text) (hright : textField? right other = .ok text')
    (hother : other ≠ key) : text' = text := by
  rw [textField?, hagree other hother] at hleft
  exact Except.ok.inj (hright.symm.trans hleft)

theorem flagField?_unique {truth truth' : Bool} (hagree : AgreeBut key left right)
    (hleft : flagField? left other = .ok truth) (hright : flagField? right other = .ok truth')
    (hother : other ≠ key) : truth' = truth := by
  rw [flagField?, hagree other hother] at hleft
  exact Except.ok.inj (hright.symm.trans hleft)

/-- The fields are the same but for the one that a key gives a value. -/
structure Fields.SameBut (key : String) (fields fields' : Fields) : Prop where
  version : "version" ≠ key → fields'.version = fields.version
  distribution : "upstream" ≠ key → fields'.distribution = fields.distribution
  maxVersion : "max_version" ≠ key → fields'.maxVersion = fields.maxVersion
  obsoleteSince : "obsolete_since" ≠ key → fields'.obsoleteSince = fields.obsoleteSince
  noLongerUpdated : "no_longer_updated" ≠ key →
    fields'.noLongerUpdated = fields.noLongerUpdated
  prerelease : "prerelease" ≠ key → fields'.prerelease = fields.prerelease

theorem sameBut_of_agreeBut {fields fields' : Fields} (hagree : AgreeBut key left right)
    (hleft : Fields.ofEntries left = .ok fields)
    (hright : Fields.ofEntries right = .ok fields') : Fields.SameBut key fields fields' := by
  obtain ⟨hversion, hdistribution, hmaxVersion, hobsoleteSince, hnoLongerUpdated, hprerelease⟩ :=
    ofEntries_eq_ok_iff.1 hleft
  obtain ⟨hversion', hdistribution', hmaxVersion', hobsoleteSince', hnoLongerUpdated',
    hprerelease'⟩ := ofEntries_eq_ok_iff.1 hright
  exact {
    version := textField?_unique hagree hversion hversion'
    distribution := textField?_unique hagree hdistribution hdistribution'
    maxVersion := textField?_unique hagree hmaxVersion hmaxVersion'
    obsoleteSince := textField?_unique hagree hobsoleteSince hobsoleteSince'
    noLongerUpdated := flagField?_unique hagree hnoLongerUpdated hnoLongerUpdated'
    prerelease := flagField?_unique hagree hprerelease hprerelease' }

theorem hasText_of_textField? {content : String}
    (hfield : textField? entries key = .ok (some content)) : entries.HasText key := by
  unfold textField? at hfield
  split at hfield
  · cases hfield
  · rename_i found hfound
    exact ⟨found, hfound⟩
  · cases hfield

end Fields

section Packages

variable {name path source : String} {package : Package}

/-- The upper bound that a text declares, if there is one. -/
def IsBound : Option String → Option Version → Prop
  | none, bound => bound = none
  | some text, bound => ∃ version, Version.parse text = .ok version ∧ bound = some version

theorem IsBound.unique {text : Option String} {left right : Option Version}
    (hleft : IsBound text left) (hright : IsBound text right) : left = right := by
  cases text with
  | none => exact Eq.trans hleft (Eq.symm hright)
  | some text =>
      obtain ⟨version, hversion, rfl⟩ := hleft
      obtain ⟨version', hversion', rfl⟩ := hright
      rw [hversion] at hversion'
      cases hversion'
      rfl

/-- A package is what the fields of its metadata say. -/
structure IsOf (package : Package) (name path source : String) (fields : Fields) : Prop where
  minVersion : ∃ version, fields.version = some version ∧
    Constraint.parse version = .ok package.minVersion
  maxVersion : IsBound fields.maxVersion package.maxVersion
  rest : package =
    { name
      distribution := fields.distribution.getD (Package.defaultDistribution name)
      minVersion := package.minVersion
      maxVersion := package.maxVersion
      obsoleteSince := fields.obsoleteSince.map Text.trimmed
      noLongerUpdated := fields.noLongerUpdated
      prerelease := fields.prerelease
      metadataPath := path
      metadataSource := source }

theorem exists_of_mapError_eq_ok {α ε ε' : Type} {read : Except ε α} {change : ε → ε'}
    {result : α} (hread : read.mapError change = .ok result) : read = .ok result := by
  cases read with
  | error error => cases hread
  | ok found =>
      cases hread
      rfl

theorem exists_fields (hparse : parse name path source = .ok package) :
    ∃ entries fields, Toml.read source = .ok entries ∧
      Fields.ofEntries entries = .ok fields ∧ IsOf package name path source fields := by
  obtain ⟨fields, hfields, hparse⟩ := exists_of_bind_eq_ok hparse
  have hfields := exists_of_mapError_eq_ok hfields
  unfold Fields.parse at hfields
  cases hread : Toml.read source with
  | error problem => simp [hread] at hfields
  | ok entries =>
      simp only [hread] at hfields
      refine ⟨entries, fields, rfl, hfields, ?_⟩
      cases hversion : fields.version with
      | none => simp [hversion, bind, Except.bind, throw, throwThe, MonadExceptOf.throw] at hparse
      | some version =>
          simp only [hversion] at hparse
          obtain ⟨_, ⟨⟩, hparse⟩ := exists_of_bind_eq_ok hparse
          obtain ⟨minVersion, hminVersion, hparse⟩ := exists_of_bind_eq_ok hparse
          have hminVersion := exists_of_mapError_eq_ok hminVersion
          cases hbound : fields.maxVersion with
          | none =>
              simp only [hbound] at hparse
              cases hparse
              exact ⟨⟨version, hversion, hminVersion⟩, by rw [hbound]; rfl, rfl⟩
          | some bound =>
              simp only [hbound] at hparse
              obtain ⟨bounded, hbounded, hparse⟩ := exists_of_bind_eq_ok hparse
              cases hparse
              refine ⟨⟨version, hversion, hminVersion⟩, ?_, rfl⟩
              rw [hbound]
              exact ⟨bounded, exists_of_mapError_eq_ok hbounded, rfl⟩

variable {key out : String} {edited : Package} {fields fields' : Fields}

theorem IsOf.obsoleteSince (hpackage : IsOf package name path source fields) :
    package.obsoleteSince = fields.obsoleteSince.map Text.trimmed :=
  congrArg Package.obsoleteSince hpackage.rest

/-- Where nothing but the version or the mark of obsolescence has another value,
the packages are the same but for these. -/
theorem IsOf.eq_of_sameBut (hpackage : IsOf package name path source fields)
    (hedited : IsOf edited name path out fields') (hsame : Fields.SameBut key fields fields')
    (hkey : key = "version" ∨ key = "obsolete_since") :
    edited = { package with
      minVersion := edited.minVersion
      obsoleteSince := edited.obsoleteSince
      metadataSource := out } := by
  have hother : ∀ other, other ≠ "version" → other ≠ "obsolete_since" → other ≠ key := by
    rintro other hversion hobsoleteSince rfl
    exact hkey.elim hversion hobsoleteSince
  have hmaxVersion := hedited.maxVersion
  rw [hsame.maxVersion (hother _ (by decide) (by decide))] at hmaxVersion
  refine hedited.rest.trans ?_
  rw [hmaxVersion.unique hpackage.maxVersion, ← hedited.obsoleteSince,
    hsame.distribution (hother _ (by decide) (by decide)),
    hsame.noLongerUpdated (hother _ (by decide) (by decide)),
    hsame.prerelease (hother _ (by decide) (by decide))]
  exact congrArg (fun other : Package =>
    { other with
      minVersion := edited.minVersion
      obsoleteSince := edited.obsoleteSince
      metadataSource := out }) hpackage.rest.symm

theorem IsOf.obsoleteSince_eq (hpackage : IsOf package name path source fields)
    (hedited : IsOf edited name path out fields') (hsame : Fields.SameBut "version" fields fields') :
    edited.obsoleteSince = package.obsoleteSince := by
  rw [hedited.obsoleteSince, hpackage.obsoleteSince, hsame.obsoleteSince (by decide)]

theorem IsOf.minVersion_eq (hpackage : IsOf package name path source fields)
    (hedited : IsOf edited name path out fields')
    (hsame : Fields.SameBut "obsolete_since" fields fields') :
    edited.minVersion = package.minVersion := by
  obtain ⟨version, hversion, hminVersion⟩ := hpackage.minVersion
  obtain ⟨version', hversion', hminVersion'⟩ := hedited.minVersion
  rw [hsame.version (by decide), hversion] at hversion'
  cases hversion'
  rw [hminVersion] at hminVersion'
  exact (Except.ok.inj hminVersion').symm

end Packages

end Metadata

end StubSync
