/-
The newest release that counts: no release that counts is newer, and among
releases that are equally new it is the last one of the list.
-/
import Mathlib.Data.List.Induction
import StubSync.Proofs.Version.Order
import StubSync.Release

namespace StubSync

namespace Release

section Order

instance : Std.TransCmp Instant.cmp :=
  have := Version.transCmp_on Instant.seconds compare
  have := Version.transCmp_on Instant.nanos compare
  inferInstanceAs (Std.TransCmp (compareLex
    (fun left right : Instant => compare left.seconds right.seconds)
    fun left right : Instant => compare left.nanos right.nanos))

instance {α : Type} (cmp : α → α → Ordering) [Std.TransCmp cmp] :
    Std.TransCmp (compareOption cmp) where
  eq_swap {a b} := by
    cases a <;> cases b
    case some.some x y =>
      have hswap : cmp x y = (cmp y x).swap := Std.OrientedCmp.eq_swap
      exact hswap
    all_goals rfl
  isLE_trans {a b c} hab hbc := by
    cases a <;> cases b <;> cases c
    case some.some.some x y z =>
      have hxy : (cmp x y).isLE = true := hab
      have hyz : (cmp y z).isLE = true := hbc
      have hxz : (cmp x z).isLE = true := Std.TransCmp.isLE_trans hxy hyz
      exact hxz
    all_goals first | rfl | contradiction

instance : Std.TransCmp Release.cmp :=
  have := Version.transCmp_on Release.version Version.cmp
  have := Version.transCmp_on Release.raw compare
  have := Version.transCmp_on Release.releasedAt (compareOption Instant.cmp)
  have := Version.transCmp_on Release.prerelease compare
  have := Version.transCmp_on Release.yanked compare
  have := Version.transCmp_on Release.typed compare
  inferInstanceAs (Std.TransCmp (compareLex
    (fun left right : Release => Version.cmp left.version right.version)
    (compareLex (fun left right : Release => compare left.raw right.raw)
      (compareLex (fun left right : Release =>
          compareOption Instant.cmp left.releasedAt right.releasedAt)
        (compareLex (fun left right : Release => compare left.prerelease right.prerelease)
          (compareLex (fun left right : Release => compare left.yanked right.yanked)
            fun left right : Release => compare left.typed right.typed))))))

/-- Releases in order have versions in order. -/
theorem version_le_of_cmp {left right : Release} (hle : (cmp left right).isLE = true) :
    left.version ≤ right.version := by
  rw [cmp, Ordering.isLE_then_iff_or] at hle
  rcases hle with hlt | ⟨heq, _⟩
  · exact Ordering.isLE_of_eq_lt hlt
  · exact Ordering.isLE_of_eq_eq heq

end Order

section Newest

variable {releases : List Release} {includePrereleases : Bool} {release newest : Release}

/-- The release counts, no release before it that counts is newer, and all
later ones that count are older. -/
structure IsNewest (releases : List Release) (includePrereleases : Bool) (newest : Release) :
    Prop where
  eligible : newest.isEligible includePrereleases = true
  place : ∃ earlier later, releases = earlier ++ newest :: later ∧
    (∀ release ∈ earlier, release.isEligible includePrereleases = true →
      (cmp release newest).isLE = true) ∧
    ∀ release ∈ later, release.isEligible includePrereleases = true → cmp release newest = .lt

theorem IsNewest.mem (hnewest : IsNewest releases includePrereleases newest) :
    newest ∈ releases := by
  obtain ⟨earlier, later, rfl, _, _⟩ := hnewest.place
  exact List.mem_append_right earlier List.mem_cons_self

theorem IsNewest.isLE (hnewest : IsNewest releases includePrereleases newest)
    (hrelease : release ∈ releases) (heligible : release.isEligible includePrereleases = true) :
    (cmp release newest).isLE = true := by
  obtain ⟨earlier, later, rfl, hearlier, hlater⟩ := hnewest.place
  rcases List.mem_append.1 hrelease with hmem | hmem
  · exact hearlier release hmem heligible
  · rcases List.mem_cons.1 hmem with rfl | hmem
    · exact Std.ReflCmp.isLE_rfl
    · exact Ordering.isLE_of_eq_lt (hlater release hmem heligible)

/-- Only one release of a list is the newest. -/
theorem IsNewest.unique {other : Release} (hnewest : IsNewest releases includePrereleases newest)
    (hother : IsNewest releases includePrereleases other) : newest = other := by
  obtain ⟨earlier, later, hplace, hearlier, hlater⟩ := hnewest.place
  obtain ⟨earlier', later', hplace', hearlier', hlater'⟩ := hother.place
  rw [hplace, List.append_eq_append_iff] at hplace'
  rcases hplace' with ⟨between, hbefore, hafter⟩ | ⟨between, hbefore, hafter⟩
  · cases between with
    | nil => exact (List.cons.inj hafter).1
    | cons first between =>
        obtain ⟨rfl, rfl⟩ := List.cons.inj hafter
        have hlt := hlater other (by simp) hother.eligible
        have hle := hearlier' newest (by simp [hbefore]) hnewest.eligible
        exact absurd hle (Std.OrientedCmp.not_isLE_of_lt hlt)
  · cases between with
    | nil => exact (List.cons.inj hafter).1.symm
    | cons first between =>
        obtain ⟨rfl, rfl⟩ := List.cons.inj hafter
        have hlt := hlater' newest (by simp) hnewest.eligible
        have hle := hearlier other (by simp [hbefore]) hother.eligible
        exact absurd hle (Std.OrientedCmp.not_isLE_of_lt hlt)

theorem latest?_concat (releases : List Release) (includePrereleases : Bool) (last : Release) :
    latest? (releases ++ [last]) includePrereleases =
      if last.isEligible includePrereleases then
        some (match latest? releases includePrereleases with
          | none => last
          | some newest => newer newest last)
      else latest? releases includePrereleases := by
  unfold latest?
  rw [List.filter_append]
  cases heligible : last.isEligible includePrereleases with
  | false => simp [heligible]
  | true =>
      cases hfilter : releases.filter (·.isEligible includePrereleases) with
      | nil => simp [heligible]
      | cons first others => simp [heligible]

/-- One more release at the end is the newest unless it does not count or is
older. -/
theorem IsNewest.concat (hnewest : IsNewest releases includePrereleases newest) (last : Release)
    (holder : last.isEligible includePrereleases = true → cmp last newest = .lt) :
    IsNewest (releases ++ [last]) includePrereleases newest := by
  obtain ⟨earlier, later, rfl, hearlier, hlater⟩ := hnewest.place
  refine ⟨hnewest.eligible, earlier, later ++ [last], by simp, hearlier, ?_⟩
  intro release hrelease heligible
  rcases List.mem_append.1 hrelease with hmem | hmem
  · exact hlater release hmem heligible
  · obtain rfl := List.mem_singleton.1 hmem
    exact holder heligible

theorem isNewest_last {last : Release} (heligible : last.isEligible includePrereleases = true)
    (hall : ∀ release ∈ releases, release.isEligible includePrereleases = true →
      (cmp release last).isLE = true) :
    IsNewest (releases ++ [last]) includePrereleases last :=
  ⟨heligible, releases, [], rfl, hall, nofun⟩

theorem latest?_eq_none_iff : latest? releases includePrereleases = none ↔
    ∀ release ∈ releases, release.isEligible includePrereleases = false := by
  have hnil : latest? releases includePrereleases = none ↔
      releases.filter (·.isEligible includePrereleases) = [] := by
    unfold latest?
    split <;> simp_all
  rw [hnil, List.filter_eq_nil_iff]
  simp

theorem isNewest_of_latest? (hlatest : latest? releases includePrereleases = some newest) :
    IsNewest releases includePrereleases newest := by
  induction releases using List.reverseRecOn generalizing newest with
  | nil => cases hlatest
  | append_singleton releases last ih =>
      rw [latest?_concat] at hlatest
      cases heligible : last.isEligible includePrereleases with
      | false =>
          rw [heligible] at hlatest
          apply (ih hlatest).concat
          rw [heligible]
          nofun
      | true =>
          rw [heligible, if_pos rfl] at hlatest
          cases hbefore : latest? releases includePrereleases with
          | none =>
              rw [hbefore] at hlatest
              cases hlatest
              refine isNewest_last heligible ?_
              intro release hrelease hcounts
              rw [latest?_eq_none_iff.1 hbefore release hrelease] at hcounts
              cases hcounts
          | some first =>
              have hfirst := ih hbefore
              rw [hbefore] at hlatest
              obtain rfl : newer first last = newest := Option.some.inj hlatest
              unfold newer
              split
              · rename_i hle
                refine isNewest_last heligible ?_
                intro release hrelease hcounts
                exact Std.TransCmp.isLE_trans (hfirst.isLE hrelease hcounts) hle
              · rename_i hnot
                exact hfirst.concat last fun _ => Std.OrientedCmp.lt_of_not_isLE hnot

/-- The release that is chosen is the newest one, and there is one as soon as
some release counts. -/
theorem latest?_eq_some_iff : latest? releases includePrereleases = some newest ↔
    IsNewest releases includePrereleases newest := by
  constructor
  · exact isNewest_of_latest?
  · intro hnewest
    cases hlatest : latest? releases includePrereleases with
    | none =>
        have hnot := latest?_eq_none_iff.1 hlatest newest hnewest.mem
        rw [hnewest.eligible] at hnot
        cases hnot
    | some found => rw [(isNewest_of_latest? hlatest).unique hnewest]

end Newest

end Release

end StubSync
