/-
An update settles a package: with the minimum version that is proposed, and
with the same releases, nothing is proposed again.
-/
import StubSync.Classify
import StubSync.Proofs.Constraint

namespace StubSync

namespace Release

theorem newer_cases (left right : Release) :
    newer left right = left ∨ newer left right = right := by
  unfold newer
  split
  · exact Or.inr rfl
  · exact Or.inl rfl

theorem foldl_newer_mem (others : List Release) (first : Release) :
    others.foldl newer first ∈ first :: others := by
  induction others generalizing first with
  | nil => exact List.mem_cons_self
  | cons next others ih =>
      rw [List.foldl_cons]
      rcases List.mem_cons.1 (ih (newer first next)) with hkept | hlater
      · rcases newer_cases first next with hfirst | hnext
        · rw [hkept, hfirst]
          exact List.mem_cons_self
        · rw [hkept, hnext]
          exact List.mem_cons_of_mem first List.mem_cons_self
      · exact List.mem_cons_of_mem first (List.mem_cons_of_mem next hlater)

theorem latest?_mem {releases : List Release} {includePrereleases : Bool} {latest : Release}
    (hlatest : latest? releases includePrereleases = some latest) : latest ∈ releases := by
  unfold latest? at hlatest
  split at hlatest
  · cases hlatest
  · rename_i first others heligible
    cases hlatest
    have hmem := foldl_newer_mem others first
    rw [← heligible] at hmem
    exact (List.mem_filter.1 hmem).1

end Release

section Settling

variable {package : Package} {releases : List Release} {current target : Version}

/-- An update leads to the latest release that counts, of a package that is
tracked, and its minimum version does not cover that release. -/
structure IsOutdated (package : Package) (releases : List Release) (latest : Release) :
    Prop where
  tracked : package.isObsolete = false ∧ package.noLongerUpdated = false
  released : releases.isEmpty = false
  newest : Release.latest? releases package.prerelease = some latest
  uncovered : package.minVersion.covers latest.version = false

theorem isOutdated_of_update (hupdate : classify package releases = .update current target) :
    ∃ latest, IsOutdated package releases latest ∧ latest.version = target := by
  have hobsolete : package.isObsolete = false := by
    apply Bool.eq_false_iff.2
    intro hobsolete
    simp [classify, hobsolete] at hupdate
  have hfrozen : package.noLongerUpdated = false := by
    apply Bool.eq_false_iff.2
    intro hfrozen
    simp [classify, hobsolete, hfrozen] at hupdate
  have hreleased : releases.isEmpty = false := by
    apply Bool.eq_false_iff.2
    intro hempty
    simp [classify, hobsolete, hfrozen, hempty] at hupdate
  cases hnewest : Release.latest? releases package.prerelease with
  | none => simp [classify, hobsolete, hfrozen, hreleased, hnewest] at hupdate
  | some latest =>
      simp only [classify, hobsolete, hfrozen, hreleased, hnewest, Bool.false_eq_true,
        if_false] at hupdate
      split at hupdate
      · cases hupdate
      · rename_i hcovers
        refine ⟨latest, ⟨⟨hobsolete, hfrozen⟩, hreleased, hnewest, by simpa using hcovers⟩, ?_⟩
        split at hupdate
        · cases hupdate
        · split at hupdate
          · cases hupdate
          · cases hupdate
            rfl

/-- What a verdict names is the version of a release. -/
theorem exists_release_of_target (htarget : (classify package releases).target? = some target) :
    ∃ release ∈ releases, release.version = target := by
  unfold classify at htarget
  split at htarget
  · cases htarget
  · split at htarget
    · cases htarget
    · split at htarget
      · cases htarget
      · split at htarget
        · cases htarget
        · rename_i latest hnewest
          refine ⟨latest, Release.latest?_mem hnewest, ?_⟩
          split at htarget
          · cases htarget
          · split at htarget
            · exact Option.some.inj htarget
            · split at htarget
              · cases htarget
              · exact Option.some.inj htarget

/-- Whatever minimum version covers the latest release, the package is up to
date with it. -/
theorem IsOutdated.upToDate {latest : Release} (houtdated : IsOutdated package releases latest)
    {minimum : Constraint} (hcovers : minimum.covers latest.version = true) :
    classify { package with minVersion := minimum } releases = .rest .upToDate := by
  have hobsolete := houtdated.tracked.1
  unfold Package.isObsolete at hobsolete
  simp [classify, Package.isObsolete, hobsolete, houtdated.tracked.2, houtdated.released,
    houtdated.newest, hcovers]

/-- How a minimum version is raised to what it did not cover. -/
structure Constraint.IsRaise (old : Constraint) (target : Version) (raised : Constraint) :
    Prop where
  wildcard : raised.wildcard = old.wildcard
  precision : old.wildcard = true →
    raised.version.release.length = old.version.release.length
  version_lt : old.version < raised.version
  raw_ne : raised.raw ≠ old.raw
  covers_target : raised.covers target = true
  covers_old : ∀ version, old.covers version = true → raised.covers version = true

theorem Constraint.isRaise_raisedTo {old : Constraint} (hold : old.IsSpelled)
    (htarget : target.WellFormed) (hnot : old.covers target = false) :
    old.IsRaise target (old.raisedTo target) where
  wildcard := rfl
  precision := by
    intro hwildcard
    simp only [raisedTo, hwildcard, if_true]
    exact Version.length_leading _ _
  version_lt := lt_raisedTo hnot
  raw_ne := by
    intro hraw
    have hspelled := isSpelled_of_parse (parse_bumpedTo hold.wellFormed htarget)
    have hlt := lt_raisedTo hnot
    rw [eq_of_raw hspelled hold hraw] at hlt
    exact Version.not_le_of_lt hlt (Version.le_refl old.version)
  covers_target := covers_raisedTo old target
  covers_old _ := covers_raisedTo_of_covers hnot

/-- The text that an update writes is read as a raised minimum version, with
which nothing is left to be proposed.  Versions are made by reading them, those
of the releases like the declared one. -/
theorem update_settles (text : String)
    (hminimum : Constraint.parse text = .ok package.minVersion)
    (hreleases : ∀ release ∈ releases,
      ∃ spelling, Version.parse spelling = .ok release.version)
    (hupdate : classify package releases = .update current target) :
    ∃ raised, Constraint.parse (package.minVersion.bumpedTo target) = .ok raised ∧
      package.minVersion.IsRaise target raised ∧
      classify { package with minVersion := raised } releases = .rest .upToDate := by
  have hspelled := Constraint.isSpelled_of_parse hminimum
  obtain ⟨latest, houtdated, rfl⟩ := isOutdated_of_update hupdate
  have htarget : latest.version.WellFormed :=
    Version.wellFormed_iff.2 (hreleases latest (Release.latest?_mem houtdated.newest))
  exact ⟨package.minVersion.raisedTo latest.version,
    Constraint.parse_bumpedTo hspelled.wellFormed htarget,
    Constraint.isRaise_raisedTo hspelled htarget houtdated.uncovered,
    houtdated.upToDate (Constraint.covers_raisedTo _ _)⟩

end Settling

namespace SettlingExample

def declared : Constraint where
  raw := "1!1.2.*"
  version := ⟨1, [1, 2], none, none, none, none⟩
  wildcard := true

def stubs : Package where
  name := "left"
  distribution := "left"
  minVersion := declared

/-- A release of the series that is declared, a post-release past it, and a
pre-release that does not count. -/
def released : List Release :=
  [{ version := ⟨1, [1, 2, 7], none, none, none, none⟩, raw := "1!1.2.7", prerelease := false },
    { version := ⟨1, [2], none, some 1, none, some "deb"⟩, raw := "1!2-1+deb",
      prerelease := false },
    { version := ⟨1, [3], some (.candidate, 1), none, none, none⟩, raw := "1!3rc1",
      prerelease := true }]

theorem update_settles_series :
    Constraint.parse " 1!1.2.*" = .ok stubs.minVersion ∧
      classify stubs released =
        .update ⟨1, [1, 2], none, none, none, none⟩ ⟨1, [2], none, some 1, none, some "deb"⟩ ∧
      stubs.minVersion.bumpedTo ⟨1, [2], none, some 1, none, some "deb"⟩ = "1!2.0.*" ∧
      ∃ raised, Constraint.parse "1!2.0.*" = .ok raised ∧
        classify { stubs with minVersion := raised } released = .rest .upToDate := by
  have hdeclared : Constraint.parse " 1!1.2.*" = .ok stubs.minVersion := by rfl
  have hupdate : classify stubs released =
      .update ⟨1, [1, 2], none, none, none, none⟩
        ⟨1, [2], none, some 1, none, some "deb"⟩ := by decide
  have hread : ∀ release ∈ released,
      ∃ spelling, Version.parse spelling = .ok release.version := by
    intro release hrelease
    simp only [released, List.mem_cons, List.not_mem_nil, or_false] at hrelease
    rcases hrelease with rfl | rfl | rfl
    · exact ⟨"1!1.2.7", by rfl⟩
    · exact ⟨"1!2-1+deb", by rfl⟩
    · exact ⟨"1!3rc1", by rfl⟩
  have hbumped : stubs.minVersion.bumpedTo ⟨1, [2], none, some 1, none, some "deb"⟩ =
      "1!2.0.*" := by decide +kernel
  obtain ⟨raised, hraised, _, hrest⟩ := update_settles " 1!1.2.*" hdeclared hread hupdate
  rw [hbumped] at hraised
  exact ⟨hdeclared, hupdate, hbumped, raised, hraised, hrest⟩

end SettlingExample

end StubSync
