/-
Releases from the newest to the oldest.

The raw text of a release that was read tells its version, so releases that were
read and compare equal are the same, however alike their versions are.  Hence a
list of them has one order only, and its newest release is told by what the list
holds and not by where it stands.
-/
import StubSync.Proofs.Release

namespace StubSync

namespace Release

section Ties

variable {left right : Release}

instance : Std.LawfulEqCmp Instant.cmp where
  eq_of_compare {left right} heq := by
    rw [Instant.cmp, Ordering.then_eq_eq, Std.LawfulEqCmp.compare_eq_iff_eq,
      Std.LawfulEqCmp.compare_eq_iff_eq] at heq
    obtain ⟨seconds, nanos⟩ := left
    obtain ⟨rfl, rfl⟩ := heq
    rfl

instance {α : Type} (cmp : α → α → Ordering) [Std.LawfulEqCmp cmp] :
    Std.LawfulEqCmp (compareOption cmp) where
  compare_self {a} := by
    cases a with
    | none => rfl
    | some x =>
        have hself : cmp x x = .eq := Std.ReflCmp.compare_self
        exact hself
  eq_of_compare {a b} heq := by
    cases a <;> cases b
    case some.some x y =>
      have heq : cmp x y = .eq := heq
      rw [Std.LawfulEqCmp.eq_of_compare heq]
    case none.none => rfl
    all_goals cases heq

/-- The version is the one that the published text spells. -/
def IsSpelled (release : Release) : Prop :=
  Version.parse release.raw = .ok release.version

/-- The fields behind the version break every tie. -/
theorem eq_of_cmp_eq_eq (hleft : left.IsSpelled) (hright : right.IsSpelled)
    (heq : cmp left right = .eq) : left = right := by
  simp only [cmp, Ordering.then_eq_eq, Std.LawfulEqCmp.compare_eq_iff_eq] at heq
  obtain ⟨_, hraw, hreleasedAt, hprerelease, hyanked, htyped⟩ := heq
  have hversion : left.version = right.version := by
    rw [IsSpelled, hraw, hright] at hleft
    exact (Except.ok.inj hleft).symm
  cases left
  cases right
  congr

theorem eq_of_isLE (hleft : left.IsSpelled) (hright : right.IsSpelled)
    (hle : (cmp left right).isLE = true) (hge : (cmp right left).isLE = true) : left = right :=
  eq_of_cmp_eq_eq hleft hright (Std.OrientedCmp.isLE_antisymm hle hge)

end Ties

section Sorting

variable {releases left right : List Release} {release newest : Release}

theorem newestFirst_perm (releases : List Release) : (newestFirst releases).Perm releases :=
  List.mergeSort_perm releases _

theorem mem_newestFirst : release ∈ newestFirst releases ↔ release ∈ releases :=
  (newestFirst_perm releases).mem_iff

theorem newestFirst_pairwise (releases : List Release) :
    (newestFirst releases).Pairwise fun newer older => (cmp older newer).isLE = true := by
  apply List.pairwise_mergeSort
  · intro first second third hsecond hthird
    exact Std.TransCmp.isLE_trans hthird hsecond
  · intro first second
    rw [Bool.or_eq_true]
    by_cases hle : (cmp second first).isLE = true
    · exact Or.inl hle
    · exact Or.inr (Ordering.isLE_of_eq_lt (Std.OrientedCmp.lt_of_not_isLE hle))

/-- Releases that were read are sorted in one way only. -/
theorem newestFirst_eq_of_perm (hspelled : ∀ release ∈ left, release.IsSpelled)
    (hperm : left.Perm right) : newestFirst left = newestFirst right := by
  apply List.Perm.eq_of_pairwise _ (newestFirst_pairwise left) (newestFirst_pairwise right)
  · exact (newestFirst_perm left).trans (hperm.trans (newestFirst_perm right).symm)
  · intro first second hfirst hsecond hle hge
    have hfirst := hspelled first (mem_newestFirst.1 hfirst)
    have hsecond := hspelled second (hperm.mem_iff.2 (mem_newestFirst.1 hsecond))
    exact eq_of_isLE hfirst hsecond hge hle

end Sorting

section Greatest

variable {releases left right : List Release} {includePrereleases : Bool} {newest : Release}

/-- The release counts, and no release that counts is newer. -/
structure IsGreatest (releases : List Release) (includePrereleases : Bool) (newest : Release) :
    Prop where
  mem : newest ∈ releases
  eligible : newest.isEligible includePrereleases = true
  isLE : ∀ release ∈ releases, release.isEligible includePrereleases = true →
    (cmp release newest).isLE = true

theorem isGreatest_of_latest? (hlatest : latest? releases includePrereleases = some newest) :
    IsGreatest releases includePrereleases newest := by
  have hnewest := latest?_eq_some_iff.1 hlatest
  exact ⟨hnewest.mem, hnewest.eligible, fun release => hnewest.isLE⟩

theorem IsGreatest.unique {other : Release} (hspelled : ∀ release ∈ releases, release.IsSpelled)
    (hnewest : IsGreatest releases includePrereleases newest)
    (hother : IsGreatest releases includePrereleases other) : newest = other := by
  apply eq_of_isLE (hspelled newest hnewest.mem) (hspelled other hother.mem)
  · exact hother.isLE newest hnewest.mem hnewest.eligible
  · exact hnewest.isLE other hother.mem hother.eligible

/-- Where releases were read, the release that is chosen is told without the
order of the list. -/
theorem latest?_eq_some_iff_isGreatest (hspelled : ∀ release ∈ releases, release.IsSpelled) :
    latest? releases includePrereleases = some newest ↔
      IsGreatest releases includePrereleases newest := by
  constructor
  · exact isGreatest_of_latest?
  · intro hnewest
    cases hlatest : latest? releases includePrereleases with
    | none =>
        have hnot := latest?_eq_none_iff.1 hlatest newest hnewest.mem
        rw [hnewest.eligible] at hnot
        contradiction
    | some found => rw [(isGreatest_of_latest? hlatest).unique hspelled hnewest]

theorem isGreatest_of_find?
    (hfind : (newestFirst releases).find? (·.isEligible includePrereleases) = some newest) :
    IsGreatest releases includePrereleases newest := by
  obtain ⟨heligible, earlier, later, hsplit, hearlier⟩ := List.find?_eq_some_iff_append.1 hfind
  have hsorted := newestFirst_pairwise releases
  rw [hsplit, List.pairwise_append, List.pairwise_cons] at hsorted
  obtain ⟨_, ⟨hlater, _⟩, _⟩ := hsorted
  refine ⟨mem_newestFirst.1 (List.mem_of_find?_eq_some hfind), heligible, ?_⟩
  intro release hrelease hcounts
  rw [← mem_newestFirst, hsplit, List.mem_append, List.mem_cons] at hrelease
  rcases hrelease with hmem | rfl | hmem
  · have hnot := hearlier release hmem
    rw [hcounts] at hnot
    contradiction
  · exact Std.ReflCmp.isLE_rfl
  · exact hlater release hmem

/-- The release that is chosen comes first among those that count, once they
are sorted. -/
theorem latest?_eq_find? (hspelled : ∀ release ∈ releases, release.IsSpelled)
    (includePrereleases : Bool) :
    latest? releases includePrereleases =
      (newestFirst releases).find? (·.isEligible includePrereleases) := by
  cases hfind : (newestFirst releases).find? (·.isEligible includePrereleases) with
  | some newest =>
      rw [latest?_eq_some_iff_isGreatest hspelled]
      exact isGreatest_of_find? hfind
  | none =>
      rw [latest?_eq_none_iff]
      intro release hrelease
      rw [← Bool.not_eq_true]
      exact List.find?_eq_none.1 hfind release (mem_newestFirst.2 hrelease)

end Greatest

end Release

end StubSync
