/-
What a package needs, as a table of cases.

The cases exclude each other and one of them always holds, so the verdict on a
package is the one case that holds.  Where a verdict names a version, it is the
version of the newest release that counts.
-/
import StubSync.Classify
import StubSync.Proofs.Constraint
import StubSync.Proofs.Release

namespace StubSync

open Release (IsNewest)

/-- The version is not above the declared one, or it has the epoch and begins
with the release of a declared series; missing segments are zero. -/
def Constraint.IsCovered (declared : Constraint) (version : Version) : Prop :=
  version ≤ declared.version ∨ declared.wildcard = true ∧
    version.epoch = declared.version.epoch ∧
    ∀ place < declared.version.release.length,
      version.release.getD place 0 = declared.version.release.getD place 0

/-- The package is neither obsolete nor frozen. -/
structure Package.IsTracked (package : Package) : Prop where
  notObsolete : package.obsoleteSince = none
  followed : package.noLongerUpdated = false

/-- The cases of a verdict, each with all of its conditions. -/
inductive Verdict (package : Package) (releases : List Release) : Action → Prop
  | alreadyObsolete (hobsolete : package.obsoleteSince ≠ none) :
      Verdict package releases (.rest .alreadyObsolete)
  | noLongerUpdated (hobsolete : package.obsoleteSince = none)
      (hfrozen : package.noLongerUpdated = true) :
      Verdict package releases (.rest .noLongerUpdated)
  | vanished (htracked : package.IsTracked) (hempty : releases = []) :
      Verdict package releases (.review vanished)
  | noStableRelease (htracked : package.IsTracked) (hreleased : releases ≠ [])
      (hnone : ∀ release ∈ releases, release.isEligible package.prerelease = false) :
      Verdict package releases (.rest .noStableRelease)
  | upToDate {newest : Release} (htracked : package.IsTracked)
      (hnewest : IsNewest releases package.prerelease newest)
      (hcovered : package.minVersion.IsCovered newest.version) :
      Verdict package releases (.rest .upToDate)
  | markObsolete {newest : Release} (htracked : package.IsTracked)
      (hnewest : IsNewest releases package.prerelease newest)
      (huncovered : ¬ package.minVersion.IsCovered newest.version)
      (htyped : newest.typed = true) :
      Verdict package releases (.markObsolete newest.version)
  | upperBoundExceeded {newest : Release} {bound : Version} (htracked : package.IsTracked)
      (hnewest : IsNewest releases package.prerelease newest)
      (huncovered : ¬ package.minVersion.IsCovered newest.version)
      (htyped : newest.typed = false) (hbound : package.maxVersion = some bound)
      (hreached : bound ≤ newest.version) :
      Verdict package releases (.review upperBoundExceeded)
  | update {newest : Release} (htracked : package.IsTracked)
      (hnewest : IsNewest releases package.prerelease newest)
      (huncovered : ¬ package.minVersion.IsCovered newest.version)
      (htyped : newest.typed = false)
      (hbelow : ∀ bound ∈ package.maxVersion, newest.version < bound) :
      Verdict package releases (.update package.minVersion.version newest.version)

section Deciding

variable {package : Package} {releases : List Release} {newest : Release} {action : Action}

theorem Constraint.covers_iff {declared : Constraint} {version : Version} :
    declared.covers version = true ↔ declared.IsCovered version := by
  rw [covers, IsCovered, Bool.or_eq_true, decide_eq_true_iff, Bool.and_eq_true,
    Version.isInSeries, Bool.and_eq_true, beq_iff_eq, Version.beginsWith_iff]

theorem Constraint.covers_eq_false_iff {declared : Constraint} {version : Version} :
    declared.covers version = false ↔ ¬ declared.IsCovered version := by
  rw [← covers_iff, Bool.not_eq_true]

theorem any_le_iff {bound : Option Version} {version : Version} :
    bound.any (· ≤ version) = true ↔ ∃ max, bound = some max ∧ max ≤ version := by
  cases bound <;> simp

theorem any_le_eq_false_iff {bound : Option Version} {version : Version} :
    bound.any (· ≤ version) = false ↔ ∀ max ∈ bound, version < max := by
  cases bound with
  | none => simp
  | some max =>
      have hlt : ¬ max ≤ version ↔ version < max :=
        ⟨Version.lt_of_not_le, Version.not_le_of_lt⟩
      simpa using hlt

/-- Where there is a newest release, a case of the package that is tracked
holds. -/
theorem exists_verdict_of_newest (htracked : package.IsTracked)
    (hnewest : IsNewest releases package.prerelease newest) :
    ∃ action, Verdict package releases action := by
  by_cases hcovered : package.minVersion.IsCovered newest.version
  · exact ⟨_, .upToDate htracked hnewest hcovered⟩
  · cases htyped : newest.typed with
    | true => exact ⟨_, .markObsolete htracked hnewest hcovered htyped⟩
    | false =>
        cases hbound : package.maxVersion.any (· ≤ newest.version) with
        | true =>
            obtain ⟨bound, hmax, hreached⟩ := any_le_iff.1 hbound
            exact ⟨_, .upperBoundExceeded htracked hnewest hcovered htyped hmax hreached⟩
        | false =>
            exact ⟨_, .update htracked hnewest hcovered htyped (any_le_eq_false_iff.1 hbound)⟩

theorem Package.isTracked_iff : package.IsTracked ↔
    package.isObsolete = false ∧ package.noLongerUpdated = false := by
  rw [isObsolete, Option.isSome_eq_false_iff, Option.isNone_iff_eq_none]
  exact ⟨fun htracked => ⟨htracked.notObsolete, htracked.followed⟩,
    fun ⟨hobsolete, hfrozen⟩ => ⟨hobsolete, hfrozen⟩⟩

theorem classify_of_newest (htracked : package.IsTracked)
    (hnewest : IsNewest releases package.prerelease newest) :
    classify package releases =
      if package.minVersion.covers newest.version then .rest .upToDate
      else if newest.typed then .markObsolete newest.version
      else if package.maxVersion.any (· ≤ newest.version) then .review upperBoundExceeded
      else .update package.minVersion.version newest.version := by
  obtain ⟨hobsolete, hfrozen⟩ := Package.isTracked_iff.1 htracked
  have hreleased : releases.isEmpty = false := by
    rw [List.isEmpty_eq_false_iff]
    exact List.ne_nil_of_mem hnewest.mem
  simp [classify, hobsolete, hfrozen, hreleased, Release.latest?_eq_some_iff.2 hnewest]

/-- One case always holds. -/
theorem exists_verdict (package : Package) (releases : List Release) :
    ∃ action, Verdict package releases action := by
  by_cases hobsolete : package.obsoleteSince = none
  · cases hfrozen : package.noLongerUpdated with
    | true => exact ⟨_, .noLongerUpdated hobsolete hfrozen⟩
    | false =>
        have htracked : package.IsTracked := ⟨hobsolete, hfrozen⟩
        by_cases hempty : releases = []
        · exact ⟨_, .vanished htracked hempty⟩
        · cases hlatest : Release.latest? releases package.prerelease with
          | none =>
              exact ⟨_, .noStableRelease htracked hempty (Release.latest?_eq_none_iff.1 hlatest)⟩
          | some newest =>
              exact exists_verdict_of_newest htracked (Release.latest?_eq_some_iff.1 hlatest)
  · exact ⟨_, .alreadyObsolete hobsolete⟩

/-- No other verdict has its conditions hold. -/
theorem Verdict.classify_eq (hverdict : Verdict package releases action) :
    classify package releases = action := by
  cases hverdict with
  | alreadyObsolete hobsolete =>
      simp [classify, Package.isObsolete, Option.isSome_iff_ne_none, hobsolete]
  | noLongerUpdated hobsolete hfrozen => simp [classify, Package.isObsolete, hobsolete, hfrozen]
  | vanished htracked hempty =>
      obtain ⟨hobsolete, hfrozen⟩ := Package.isTracked_iff.1 htracked
      simp [classify, hobsolete, hfrozen, hempty]
  | noStableRelease htracked hreleased hnone =>
      obtain ⟨hobsolete, hfrozen⟩ := Package.isTracked_iff.1 htracked
      simp [classify, hobsolete, hfrozen, hreleased, Release.latest?_eq_none_iff.2 hnone]
  | upToDate htracked hnewest hcovered =>
      rw [classify_of_newest htracked hnewest, if_pos (Constraint.covers_iff.2 hcovered)]
  | markObsolete htracked hnewest huncovered htyped =>
      rw [classify_of_newest htracked hnewest, Constraint.covers_eq_false_iff.2 huncovered, htyped]
      rfl
  | upperBoundExceeded htracked hnewest huncovered htyped hbound hreached =>
      rw [classify_of_newest htracked hnewest, Constraint.covers_eq_false_iff.2 huncovered, htyped,
        any_le_iff.2 ⟨_, hbound, hreached⟩]
      rfl
  | update htracked hnewest huncovered htyped hbelow =>
      rw [classify_of_newest htracked hnewest, Constraint.covers_eq_false_iff.2 huncovered, htyped,
        any_le_eq_false_iff.2 hbelow]
      rfl

theorem classify_eq_iff : classify package releases = action ↔ Verdict package releases action := by
  constructor
  · rintro rfl
    obtain ⟨verdict, hverdict⟩ := exists_verdict package releases
    rwa [hverdict.classify_eq]
  · exact Verdict.classify_eq

end Deciding

section Naming

variable {package : Package} {releases : List Release} {current target : Version}

/-- The version is one of a release that counts.  It is above the declared
version, and no release that counts is newer. -/
structure IsAdvance (package : Package) (releases : List Release) (target : Version) : Prop where
  released : ∃ release ∈ releases, release.isEligible package.prerelease = true ∧
    release.version = target
  declared_lt : package.minVersion.version < target
  newest : ∀ release ∈ releases, release.isEligible package.prerelease = true →
    release.version ≤ target

theorem isAdvance_newest {newest : Release}
    (hnewest : IsNewest releases package.prerelease newest)
    (huncovered : ¬ package.minVersion.IsCovered newest.version) :
    IsAdvance package releases newest.version where
  released := ⟨newest, hnewest.mem, hnewest.eligible, rfl⟩
  declared_lt := Version.lt_of_not_le fun hle => huncovered (Or.inl hle)
  newest _ hrelease heligible :=
    Release.version_le_of_cmp (hnewest.isLE hrelease heligible)

theorem isAdvance_of_update (hupdate : Verdict package releases (.update current target)) :
    IsAdvance package releases target ∧ ∀ bound ∈ package.maxVersion, target < bound := by
  cases hupdate with
  | update _ hnewest huncovered _ hbelow => exact ⟨isAdvance_newest hnewest huncovered, hbelow⟩

theorem isAdvance_of_markObsolete (hmark : Verdict package releases (.markObsolete target)) :
    IsAdvance package releases target := by
  cases hmark with
  | markObsolete _ hnewest huncovered _ => exact isAdvance_newest hnewest huncovered

/-- The verdict on a package is the one case that holds.  What an update or a
mark names is an advance on the declared version, and an update stays below the
upper bound. -/
theorem classify_decides (package : Package) (releases : List Release) :
    (∀ action, classify package releases = action ↔ Verdict package releases action) ∧
      (∀ current target, classify package releases = .update current target →
        IsAdvance package releases target ∧ ∀ bound ∈ package.maxVersion, target < bound) ∧
      ∀ target, classify package releases = .markObsolete target →
        IsAdvance package releases target := by
  refine ⟨?_, ?_, ?_⟩
  · intro action
    exact classify_eq_iff
  · intro current target hupdate
    exact isAdvance_of_update (classify_eq_iff.1 hupdate)
  · intro target hmark
    exact isAdvance_of_markObsolete (classify_eq_iff.1 hmark)

end Naming

namespace VerdictExample

/-- Stubs for version 1.0 and later ones below 3. -/
def stubs : Package where
  name := "left"
  distribution := "left"
  minVersion := ⟨"1.0", ⟨0, [1, 0], none, none, none, none⟩, false⟩
  maxVersion := some ⟨0, [3], none, none, none, none⟩

/-- Two spellings of one version between releases that do not count. -/
def released : List Release :=
  [{ version := ⟨0, [4], none, none, none, none⟩, raw := "4", prerelease := false,
      yanked := true, typed := true },
    { version := ⟨0, [2, 0], none, none, none, none⟩, raw := "2.0", prerelease := false },
    { version := ⟨0, [2], none, none, none, none⟩, raw := "2", prerelease := false },
    { version := ⟨0, [2, 1], some (.beta, 1), none, none, none⟩, raw := "2.1b1",
      prerelease := true }]

/-- The same releases, of a distribution that ships its own types. -/
def typedReleased : List Release :=
  released.map fun release => { release with typed := true }

theorem classify_names_two :
    classify stubs released =
        .update ⟨0, [1, 0], none, none, none, none⟩ ⟨0, [2, 0], none, none, none, none⟩ ∧
      Verdict stubs released
        (.update ⟨0, [1, 0], none, none, none, none⟩ ⟨0, [2, 0], none, none, none, none⟩) ∧
      IsAdvance stubs released ⟨0, [2, 0], none, none, none, none⟩ ∧
      classify stubs typedReleased = .markObsolete ⟨0, [2, 0], none, none, none, none⟩ ∧
      IsAdvance stubs typedReleased ⟨0, [2, 0], none, none, none, none⟩ := by
  have hupdate : classify stubs released =
      .update ⟨0, [1, 0], none, none, none, none⟩ ⟨0, [2, 0], none, none, none, none⟩ := by
    decide
  have hmark : classify stubs typedReleased =
      .markObsolete ⟨0, [2, 0], none, none, none, none⟩ := by
    decide
  obtain ⟨hcases, hadvance, _⟩ := classify_decides stubs released
  obtain ⟨_, _, htyped⟩ := classify_decides stubs typedReleased
  exact ⟨hupdate, (hcases _).1 hupdate, (hadvance _ _ hupdate).1, hmark, htyped _ hmark⟩

end VerdictExample

end StubSync
