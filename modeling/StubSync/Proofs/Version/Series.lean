/-
Series of versions: what lies in a series lies below every version that is
above the series and outside of it.
-/
import StubSync.Proofs.Version.Order

namespace StubSync

namespace Version

section Segments

/-- Exactly `count` segments of a release, filled up with zeros. -/
def leading (count : Nat) (release : List Nat) : List Nat :=
  release.take count ++ List.replicate (count - release.length) 0

theorem truncated_release (version : Version) (count : Nat) :
    (version.truncated count).release = leading count version.release :=
  rfl

theorem length_leading (count : Nat) (release : List Nat) :
    (leading count release).length = count := by
  simp only [leading, List.length_append, List.length_take, List.length_replicate]
  omega

theorem leading_succ (count : Nat) (release : List Nat) :
    leading (count + 1) release = release.headD 0 :: leading count release.tail := by
  cases release with
  | nil => simp [leading, List.replicate_succ]
  | cons n others => simp [leading]

theorem beginsWith_cons (release : List Nat) (n : Nat) (others : List Nat) :
    beginsWith release (n :: others) =
      (release.headD 0 == n && beginsWith release.tail others) := by
  cases release with
  | nil => simp [beginsWith, Bool.beq_comm]
  | cons m segments => simp [beginsWith]

theorem beginsWith_nil (release : List Nat) : beginsWith release [] = true := by
  cases release <;> rfl

theorem beginsWith_iff {release base : List Nat} :
    beginsWith release base = true ↔
      ∀ place < base.length, release.getD place 0 = base.getD place 0 := by
  induction base generalizing release with
  | nil => simp [beginsWith_nil]
  | cons n others ih =>
      rw [beginsWith_cons, Bool.and_eq_true, beq_iff_eq, ih]
      constructor
      · rintro ⟨hhead, htail⟩ place hplace
        cases place with
        | zero => rw [getD_zero, hhead, List.getD_cons_zero]
        | succ place =>
            rw [getD_succ, List.getD_cons_succ]
            exact htail place (Nat.lt_of_succ_lt_succ hplace)
      · intro hall
        refine ⟨?_, ?_⟩
        · have hhead := hall 0 (Nat.succ_pos _)
          rwa [getD_zero, List.getD_cons_zero] at hhead
        · intro place hplace
          have htail := hall (place + 1) (Nat.succ_lt_succ hplace)
          rwa [getD_succ, List.getD_cons_succ] at htail

theorem beginsWith_leading (count : Nat) (release : List Nat) :
    beginsWith release (leading count release) = true := by
  induction count generalizing release with
  | zero => simp [leading, beginsWith_nil]
  | succ count ih => simp [leading_succ, beginsWith_cons, ih]

/-- A release that is not below another and does not begin with it differs
from it within the segments of the other. -/
theorem compareSegments_leading {base release : List Nat}
    (hle : (compareSegments base release).isLE = true)
    (hnot : beginsWith release base = false) :
    compareSegments base (leading base.length release) = .lt := by
  induction base generalizing release with
  | nil => simp [beginsWith_nil] at hnot
  | cons n others ih =>
      rw [compareSegments_eq] at hle
      rw [List.length_cons, leading_succ, compareSegments, Ordering.then_eq_lt,
        Nat.compare_eq_lt, Nat.compare_eq_eq]
      rw [List.headD_cons, List.tail_cons, Ordering.isLE_then_iff_or, Nat.compare_eq_lt,
        Nat.compare_eq_eq] at hle
      rcases hle with hlt | ⟨heq, hle⟩
      · exact Or.inl hlt
      · rw [beginsWith_cons, heq, beq_self_eq_true, Bool.true_and] at hnot
        exact Or.inr ⟨heq, ih hle hnot⟩

/-- Releases that begin alike compare alike with a release that is no longer
and differs from what they begin with. -/
theorem compareSegments_of_beginsWith {release base bound : List Nat}
    (hbegins : beginsWith release base = true) (hlength : bound.length ≤ base.length)
    (hlt : compareSegments base bound = .lt) : compareSegments release bound = .lt := by
  induction base generalizing release bound with
  | nil =>
      rw [List.length_eq_zero_iff.1 (Nat.le_zero.1 hlength)] at hlt
      simp [compareSegments] at hlt
  | cons n others ih =>
      have htail : bound.tail.length ≤ others.length := length_tail_le hlength
      rw [beginsWith_cons, Bool.and_eq_true, beq_iff_eq] at hbegins
      obtain ⟨hhead, hbegins⟩ := hbegins
      rw [compareSegments_eq, List.headD_cons, List.tail_cons, Ordering.then_eq_lt] at hlt
      rw [compareSegments_eq, Ordering.then_eq_lt, hhead]
      rcases hlt with hlt | ⟨heq, hlt⟩
      · exact Or.inl hlt
      · exact Or.inr ⟨heq, ih hbegins htail hlt⟩

end Segments

section Series

variable {version base : Version}

theorem isInSeries_truncated (version : Version) (count : Nat) :
    version.isInSeries (version.truncated count) = true := by
  rw [isInSeries, truncated_release, beginsWith_leading, Bool.and_true]
  exact beq_self_eq_true version.epoch

theorem isInSeries_self (version : Version) : version.isInSeries version = true := by
  have hbegins : ∀ release : List Nat, beginsWith release release = true := by
    intro release
    induction release with
    | nil => rfl
    | cons n others ih => simp [beginsWith, ih]
  simp [isInSeries, hbegins]

/-- The series of a version that is above a version and outside of its series
is further up, by its epoch or by one of its segments. -/
theorem lt_truncated (hlt : base < version) (hnot : version.isInSeries base = false) :
    base.epoch < version.epoch ∨ base.epoch = version.epoch ∧
      compareSegments base.release
        (version.truncated base.release.length).release = .lt := by
  rcases release_of_lt hlt with hepoch | ⟨hepoch, hle⟩
  · exact Or.inl hepoch
  · have hbegins : beginsWith version.release base.release = false := by
      simpa [isInSeries, hepoch] using hnot
    exact Or.inr ⟨hepoch, compareSegments_leading hle hbegins⟩

/-- What lies in a series is below the series of a version above it. -/
theorem lt_truncated_of_isInSeries {member : Version} (hlt : base < version)
    (hnot : version.isInSeries base = false) (hmember : member.isInSeries base = true) :
    member < version.truncated base.release.length := by
  rw [isInSeries, Bool.and_eq_true, beq_iff_eq] at hmember
  obtain ⟨hepoch, hbegins⟩ := hmember
  apply lt_of_release
  rw [hepoch]
  rcases lt_truncated hlt hnot with hup | ⟨heq, hsegments⟩
  · exact Or.inl hup
  · refine Or.inr ⟨heq, compareSegments_of_beginsWith hbegins ?_ hsegments⟩
    exact Nat.le_of_eq (length_leading _ _)

end Series

end Version

end StubSync
