/-
What a minimum version covers.

With every version a minimum version covers all versions below it.  For a
declared series this is not plain, since a series goes past its base: what is
covered is told by the leading segments of a release, as many as the base has,
and a lower version has no greater leading segments.
-/
import StubSync.Constraint
import StubSync.Proofs.Version.Series

namespace StubSync

namespace Version

section Leading

variable {left right base release : List Nat}

/-- Lists of one length are compared as in a dictionary. -/
theorem isLE_compareSegments_iff (hlength : left.length = right.length) :
    (compareSegments left right).isLE = true ↔ left = right ∨ List.Lex (· < ·) left right := by
  induction left generalizing right with
  | nil =>
      have hright : right = [] := List.length_eq_zero_iff.1 hlength.symm
      simp [hright, compareSegments]
  | cons m segments ih =>
      obtain ⟨n, others, rfl⟩ := List.exists_cons_of_length_eq_add_one hlength.symm
      have hothers : segments.length = others.length := Nat.succ.inj hlength
      rw [compareSegments_eq, List.headD_cons, List.headD_cons, List.tail_cons, List.tail_cons,
        Ordering.isLE_then_iff_or, Nat.compare_eq_lt, Nat.compare_eq_eq, ih hothers,
        List.cons.injEq, List.cons_lex_cons_iff, and_or_left, or_left_comm]

theorem leading_self (release : List Nat) : leading release.length release = release := by
  simp [leading]

/-- A release that is not above another has leading segments that are not above
those of the other. -/
theorem leading_mono (count : Nat) (hle : (compareSegments left right).isLE = true) :
    (compareSegments (leading count left) (leading count right)).isLE = true := by
  induction count generalizing left right with
  | zero => simp [leading, compareSegments]
  | succ count ih =>
      rw [compareSegments_eq, Ordering.isLE_then_iff_or] at hle
      rw [leading_succ, leading_succ, compareSegments_eq, Ordering.isLE_then_iff_or]
      rcases hle with hlt | ⟨heq, hle⟩
      · exact Or.inl hlt
      · exact Or.inr ⟨heq, ih hle⟩

/-- Leading segments that are not above a base are below it, and then the whole
release is, or they are the base itself. -/
theorem isLE_leading_iff :
    (compareSegments (leading base.length release) base).isLE = true ↔
      compareSegments release base = .lt ∨ beginsWith release base = true := by
  induction base generalizing release with
  | nil =>
      rw [beginsWith_nil]
      simp [leading, compareSegments]
  | cons n others ih =>
      rw [List.length_cons, leading_succ, compareSegments_eq (_ :: _), compareSegments_eq release,
        List.headD_cons, List.headD_cons, List.tail_cons, List.tail_cons, beginsWith_cons,
        Ordering.isLE_then_iff_or, ih, Ordering.then_eq_lt, Bool.and_eq_true, beq_iff_eq,
        Nat.compare_eq_eq, and_or_left, or_assoc]

end Leading

end Version

namespace Constraint

open Version (compareSegments leading)

section Coverage

variable {declared : Constraint} {v w : Version}

/-- What a series covers lies in an earlier epoch, or in its own epoch with
leading segments that are not above its base. -/
theorem covers_iff_leading (hwildcard : declared.wildcard = true) :
    declared.covers v = true ↔ v.epoch < declared.version.epoch ∨
      v.epoch = declared.version.epoch ∧
        (compareSegments (leading declared.version.release.length v.release)
          declared.version.release).isLE = true := by
  rw [covers, hwildcard, Bool.true_and, Bool.or_eq_true, decide_eq_true_iff, Version.isInSeries,
    Bool.and_eq_true, beq_iff_eq]
  constructor
  · rintro (hle | ⟨hepoch, hbegins⟩)
    · rcases Version.release_of_le hle with hepoch | ⟨hepoch, hrelease⟩
      · exact Or.inl hepoch
      · have hleading := Version.leading_mono declared.version.release.length hrelease
        rw [Version.leading_self] at hleading
        exact Or.inr ⟨hepoch, hleading⟩
    · exact Or.inr ⟨hepoch, Version.isLE_leading_iff.2 (Or.inr hbegins)⟩
  · rintro (hepoch | ⟨hepoch, hleading⟩)
    · exact Or.inl (Version.le_of_lt (Version.lt_of_release (Or.inl hepoch)))
    · rcases Version.isLE_leading_iff.1 hleading with hlt | hbegins
      · exact Or.inl (Version.le_of_lt (Version.lt_of_release (Or.inr ⟨hepoch, hlt⟩)))
      · exact Or.inr ⟨hepoch, hbegins⟩

theorem covers_of_le (hcovers : declared.covers v = true) (hle : w ≤ v) :
    declared.covers w = true := by
  cases hwildcard : declared.wildcard with
  | false =>
      rw [covers, hwildcard, Bool.false_and, Bool.or_false, decide_eq_true_iff] at hcovers ⊢
      exact Version.le_trans hle hcovers
  | true =>
      rw [covers_iff_leading hwildcard] at hcovers ⊢
      rcases Version.release_of_le hle with hepoch | ⟨hepoch, hrelease⟩
      · rcases hcovers with hbelow | ⟨hsame, _⟩
        · exact Or.inl (Nat.lt_trans hepoch hbelow)
        · exact Or.inl (hsame ▸ hepoch)
      · rw [hepoch]
        apply hcovers.imp_right
        rintro ⟨hsame, hleading⟩
        have hmono := Version.leading_mono declared.version.release.length hrelease
        exact ⟨hsame, Std.TransCmp.isLE_trans hmono hleading⟩

/-- A minimum version covers with every version all lower ones, hence all
spellings of one version alike.  Whether a series covers a version is told by the
epoch and by as many leading segments as the base has, and by nothing that follows
the release. -/
theorem covers_downward (declared : Constraint) :
    (∀ v w : Version, declared.covers v = true → w ≤ v → declared.covers w = true) ∧
      (∀ v w : Version, Version.cmp v w = .eq → declared.covers v = declared.covers w) ∧
      (declared.wildcard = true → ∀ v : Version,
        declared.covers v = true ↔ v.epoch < declared.version.epoch ∨
          v.epoch = declared.version.epoch ∧
            (leading declared.version.release.length v.release = declared.version.release ∨
              List.Lex (· < ·) (leading declared.version.release.length v.release)
                declared.version.release)) := by
  refine ⟨fun v w => covers_of_le, ?_, ?_⟩
  · intro v w heq
    have hswap : Version.cmp w v = .eq := Std.OrientedCmp.eq_comm.1 heq
    apply Bool.eq_iff_iff.2
    constructor
    · intro hcovers
      exact covers_of_le hcovers (Ordering.isLE_of_eq_eq hswap)
    · intro hcovers
      exact covers_of_le hcovers (Ordering.isLE_of_eq_eq heq)
  · intro hwildcard v
    rw [covers_iff_leading hwildcard,
      Version.isLE_compareSegments_iff (Version.length_leading _ v.release)]

end Coverage

namespace CoverageExample

/-- A series with an epoch, declared by one of its post-releases. -/
def series : Constraint where
  raw := "1!1.2.post3+deb.*"
  version := ⟨1, [1, 2], none, some 3, none, some "deb"⟩
  wildcard := true

/-- A release of the series that is above its base. -/
def member : Version where
  epoch := 1
  release := [1, 2, 7]
  pre := none
  post := none
  dev := none
  localLabel := none

/-- Another spelling of it. -/
def respelled : Version :=
  { member with release := [1, 2, 7, 0], localLabel := some "x" }

/-- A release candidate on the way to it. -/
def candidate : Version :=
  { member with pre := some (.candidate, 1) }

theorem series_covers :
    Constraint.parse "1!1.2.post3+deb.*" = .ok series ∧ series.version < member ∧
      series.covers member = true ∧ candidate ≤ member ∧ series.covers candidate = true ∧
      Version.cmp member respelled = .eq ∧ series.covers respelled = true := by
  obtain ⟨hlower, halike, hleading⟩ := covers_downward series
  have hcovers : series.covers member = true :=
    (hleading rfl member).2 (Or.inr ⟨rfl, Or.inl rfl⟩)
  have hle : candidate ≤ member := by decide
  have heq : Version.cmp member respelled = .eq := by decide
  refine ⟨by rfl, by decide, hcovers, hle, hlower member candidate hcovers hle, heq, ?_⟩
  rw [← halike member respelled heq, hcovers]

end CoverageExample

end Constraint

end StubSync
