/-
Which releases a verdict depends on.

A verdict looks at the newest release that counts, and among releases that were
read that one is told by the set of those that count.  So neither the order of a
list nor repetitions in it, nor releases that do not count, change a verdict.
-/
import StubSync.Classify
import StubSync.Proofs.Release.Sorted

namespace StubSync

open Release (newestFirst latest? IsGreatest)

section Eligible

variable {package : Package} {left right : List Release} {includePrereleases : Bool}

/-- The releases that count are the same in both lists, in whatever order and
however often they stand there. -/
def SameEligible (includePrereleases : Bool) (left right : List Release) : Prop :=
  ∀ release : Release, release.isEligible includePrereleases = true →
    (release ∈ left ↔ release ∈ right)

theorem SameEligible.symm (hsame : SameEligible includePrereleases left right) :
    SameEligible includePrereleases right left :=
  fun release heligible => (hsame release heligible).symm

theorem SameEligible.isGreatest {newest : Release}
    (hsame : SameEligible includePrereleases left right)
    (hnewest : IsGreatest left includePrereleases newest) :
    IsGreatest right includePrereleases newest where
  mem := (hsame newest hnewest.eligible).1 hnewest.mem
  eligible := hnewest.eligible
  isLE release hrelease heligible :=
    hnewest.isLE release ((hsame release heligible).2 hrelease) heligible

theorem SameEligible.latest?_eq (hsame : SameEligible includePrereleases left right)
    (hleft : ∀ release ∈ left, release.IsSpelled) (hright : ∀ release ∈ right, release.IsSpelled) :
    latest? left includePrereleases = latest? right includePrereleases := by
  apply Option.ext
  intro newest
  rw [Release.latest?_eq_some_iff_isGreatest hleft,
    Release.latest?_eq_some_iff_isGreatest hright]
  exact ⟨hsame.isGreatest, hsame.symm.isGreatest⟩

/-- A verdict looks at a list of releases by whether it is empty, and by its
newest release that counts. -/
theorem classify_congr (hleft : left ≠ []) (hright : right ≠ [])
    (hlatest : latest? left package.prerelease = latest? right package.prerelease) :
    classify package left = classify package right := by
  have hleft : left.isEmpty = false := List.isEmpty_eq_false_iff.2 hleft
  have hright : right.isEmpty = false := List.isEmpty_eq_false_iff.2 hright
  rw [classify, classify, hleft, hright, hlatest]

/-- Of releases that were read, those that count decide the verdict, and the
newest of them stands first among them in the one order that their list has. -/
theorem eligible_decide (package : Package) (hleft : ∀ release ∈ left, release.IsSpelled)
    (hright : ∀ release ∈ right, release.IsSpelled) :
    (left ≠ [] → right ≠ [] → SameEligible package.prerelease left right →
      classify package left = classify package right) ∧
    (left.Perm right → newestFirst left = newestFirst right) ∧
    ∀ includePrereleases, latest? left includePrereleases =
      (newestFirst left).find? (·.isEligible includePrereleases) := by
  constructor
  · intro hleftNe hrightNe hsame
    apply classify_congr hleftNe hrightNe
    exact hsame.latest?_eq hleft hright
  · constructor
    · exact Release.newestFirst_eq_of_perm hleft
    · exact Release.latest?_eq_find? hleft

end Eligible

namespace EligibleExample

/-- Stubs for version 0.9 that do not follow pre-releases. -/
def stubs : Package where
  name := "left"
  distribution := "left"
  minVersion := ⟨"0.9", ⟨0, [0, 9], none, none, none, none⟩, false⟩

def one : Release where
  version := ⟨0, [1, 0], none, none, none, none⟩
  raw := "1.0"
  prerelease := false

/-- The same version in another spelling. -/
def oneLong : Release where
  version := ⟨0, [1, 0, 0], none, none, none, some "x"⟩
  raw := "v1.0.0+X"
  prerelease := false

def yanked : Release where
  version := ⟨0, [3], none, none, none, none⟩
  raw := "3"
  prerelease := false
  yanked := true

def candidate : Release where
  version := ⟨0, [2], some (.candidate, 1), none, none, none⟩
  raw := "2rc1"
  prerelease := true

def listed : List Release := [oneLong, yanked, one]

/-- The releases that count in another order, one of them twice, and with them
another one that does not count. -/
def shuffled : List Release := [one, candidate, oneLong, one]

theorem shuffled_decide :
    SameEligible stubs.prerelease listed shuffled ∧
      classify stubs listed = classify stubs shuffled ∧
      classify stubs listed =
        .update ⟨0, [0, 9], none, none, none, none⟩ ⟨0, [1, 0, 0], none, none, none, some "x"⟩ ∧
      newestFirst listed = newestFirst listed.reverse ∧
      (newestFirst listed).find? (·.isEligible false) = some oneLong := by
  have hlisted : ∀ release ∈ listed, release.IsSpelled := by
    rw [listed, List.forall_mem_cons, List.forall_mem_cons, List.forall_mem_singleton]
    exact ⟨by rfl, by rfl, by rfl⟩
  have hshuffled : ∀ release ∈ shuffled, release.IsSpelled := by
    rw [shuffled, List.forall_mem_cons, List.forall_mem_cons, List.forall_mem_cons,
      List.forall_mem_singleton]
    exact ⟨by rfl, by rfl, by rfl, by rfl⟩
  have hsame : SameEligible stubs.prerelease listed shuffled := by
    intro release heligible
    have hyanked : release ≠ yanked := by
      rintro rfl
      contradiction
    have hcandidate : release ≠ candidate := by
      rintro rfl
      contradiction
    simp only [listed, shuffled, List.mem_cons, List.not_mem_nil, hyanked, hcandidate]
    tauto
  have hreversed : ∀ release ∈ listed.reverse, release.IsSpelled := by
    intro release hrelease
    exact hlisted release (List.mem_reverse.1 hrelease)
  have hlatest : latest? listed false = some oneLong := by decide
  obtain ⟨hclassify, _, hfirst⟩ := eligible_decide stubs hlisted hshuffled
  obtain ⟨_, hsorted, _⟩ := eligible_decide stubs hlisted hreversed
  refine ⟨hsame, hclassify (by decide) (by decide) hsame, by decide, ?_, ?_⟩
  · exact hsorted (List.reverse_perm listed).symm
  · rw [← hfirst false, hlatest]

end EligibleExample

end StubSync
