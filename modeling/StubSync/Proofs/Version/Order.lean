/-
The order of versions is total, up to versions that compare equal.

Lists of segments are compared from the front as if they went on with zeros, so
each step looks at the heads, which may be missing, and at the tails.
-/
import StubSync.Version.Basic

namespace StubSync

namespace Version

section Segments

theorem length_tail_le {segments : List Nat} {bound : Nat}
    (hlength : segments.length ≤ bound + 1) : segments.tail.length ≤ bound := by
  rw [List.length_tail]
  omega

theorem getD_zero (release : List Nat) : release.getD 0 0 = release.headD 0 := by
  cases release <;> rfl

theorem getD_succ (release : List Nat) (place : Nat) :
    release.getD (place + 1) 0 = release.tail.getD place 0 := by
  cases release <;> rfl

theorem compareSegments_eq (left right : List Nat) :
    compareSegments left right =
      (compare (left.headD 0) (right.headD 0)).then
        (compareSegments left.tail right.tail) := by
  cases left with
  | cons m segments => rfl
  | nil =>
      cases right with
      | nil => rfl
      | cons n others =>
          cases n with
          | zero => simp [compareSegments]
          | succ n => simp [compareSegments, Nat.compare_eq_lt.2 (Nat.succ_pos n)]

theorem compareSegments_swap (bound : Nat) {left right : List Nat}
    (hleft : left.length ≤ bound) (hright : right.length ≤ bound) :
    compareSegments left right = (compareSegments right left).swap := by
  induction bound generalizing left right with
  | zero =>
      rw [List.length_eq_zero_iff.1 (Nat.le_zero.1 hleft),
        List.length_eq_zero_iff.1 (Nat.le_zero.1 hright)]
      rfl
  | succ bound ih =>
      rw [compareSegments_eq left right, compareSegments_eq right left, Ordering.swap_then,
        Nat.compare_swap, ih (length_tail_le hleft) (length_tail_le hright)]

/-- The step of transitivity: heads decide, or they are equal and the tails
do. -/
theorem isLE_then_trans {a b c : Nat} {first second third : Ordering}
    (htails : first.isLE = true → second.isLE = true → third.isLE = true)
    (hfirst : ((compare a b).then first).isLE = true)
    (hsecond : ((compare b c).then second).isLE = true) :
    ((compare a c).then third).isLE = true := by
  simp only [Ordering.isLE_then_iff_or, Nat.compare_eq_lt, Nat.compare_eq_eq] at *
  rcases hfirst with hab | ⟨hab, hfirst⟩
  · rcases hsecond with hbc | ⟨hbc, _⟩
    · exact Or.inl (Nat.lt_trans hab hbc)
    · exact Or.inl (hbc ▸ hab)
  · rcases hsecond with hbc | ⟨hbc, hsecond⟩
    · exact Or.inl (hab ▸ hbc)
    · exact Or.inr ⟨hab.trans hbc, htails hfirst hsecond⟩

theorem compareSegments_trans (bound : Nat) {a b c : List Nat} (ha : a.length ≤ bound)
    (hb : b.length ≤ bound) (hc : c.length ≤ bound)
    (hab : (compareSegments a b).isLE = true) (hbc : (compareSegments b c).isLE = true) :
    (compareSegments a c).isLE = true := by
  induction bound generalizing a b c with
  | zero =>
      rw [List.length_eq_zero_iff.1 (Nat.le_zero.1 ha),
        List.length_eq_zero_iff.1 (Nat.le_zero.1 hc)]
      rfl
  | succ bound ih =>
      rw [compareSegments_eq] at hab hbc ⊢
      exact isLE_then_trans
        (ih (length_tail_le ha) (length_tail_le hb) (length_tail_le hc)) hab hbc

instance : Std.TransCmp compareSegments where
  eq_swap {a b} := compareSegments_swap (a.length + b.length) (by omega) (by omega)
  isLE_trans {a b c} := compareSegments_trans (a.length + b.length + c.length)
    (by omega) (by omega) (by omega)

end Segments

theorem transCmp_on {α β : Type} (key : α → β) (cmp : β → β → Ordering)
    [Std.TransCmp cmp] : Std.TransCmp fun left right => cmp (key left) (key right) where
  eq_swap := Std.OrientedCmp.eq_swap
  isLE_trans := Std.TransCmp.isLE_trans

instance : Std.TransCmp cmp :=
  have := transCmp_on Version.epoch compare
  have := transCmp_on Version.release compareSegments
  have := transCmp_on Version.suffixKey compareSegments
  inferInstanceAs (Std.TransCmp (compareLex
    (fun left right : Version => compare left.epoch right.epoch)
    (compareLex (fun left right : Version => compareSegments left.release right.release)
      fun left right : Version => compareSegments left.suffixKey right.suffixKey)))

section Order

variable {u v w : Version}

protected theorem le_refl (v : Version) : v ≤ v :=
  Std.ReflCmp.isLE_rfl

protected theorem le_of_lt (huv : u < v) : u ≤ v :=
  Ordering.isLE_of_eq_lt huv

protected theorem lt_of_not_le (huv : ¬ u ≤ v) : v < u :=
  Std.OrientedCmp.lt_of_not_isLE huv

protected theorem not_le_of_lt (huv : u < v) : ¬ v ≤ u :=
  Std.OrientedCmp.not_isLE_of_lt huv

protected theorem le_trans (huv : u ≤ v) (hvw : v ≤ w) : u ≤ w :=
  Std.TransCmp.isLE_trans huv hvw

protected theorem lt_of_le_of_lt (huv : u ≤ v) (hvw : v < w) : u < w :=
  Std.TransCmp.lt_of_isLE_of_lt huv hvw

/-- A version is below another if its epoch is, or if the epochs are equal and
its release is below. -/
theorem lt_of_release
    (hrelease : u.epoch < v.epoch ∨
      u.epoch = v.epoch ∧ compareSegments u.release v.release = .lt) : u < v := by
  change cmp u v = .lt
  rw [cmp, Ordering.then_eq_lt, Ordering.then_eq_lt, Nat.compare_eq_lt, Nat.compare_eq_eq]
  rcases hrelease with hepoch | ⟨hepoch, hlt⟩
  · exact Or.inl hepoch
  · exact Or.inr ⟨hepoch, Or.inl hlt⟩

/-- A version that is not above another has no greater epoch, and in the same
epoch no greater release. -/
theorem release_of_le (huv : u ≤ v) :
    u.epoch < v.epoch ∨
      u.epoch = v.epoch ∧ (compareSegments u.release v.release).isLE = true := by
  change (cmp u v).isLE = true at huv
  rw [cmp, Ordering.isLE_then_iff_or, Nat.compare_eq_lt, Nat.compare_eq_eq,
    Ordering.isLE_then_iff_or] at huv
  rcases huv with hepoch | ⟨hepoch, hlt | ⟨heq, _⟩⟩
  · exact Or.inl hepoch
  · exact Or.inr ⟨hepoch, Ordering.isLE_of_eq_lt hlt⟩
  · exact Or.inr ⟨hepoch, Ordering.isLE_of_eq_eq heq⟩

theorem release_of_lt (huv : u < v) :
    u.epoch < v.epoch ∨
      u.epoch = v.epoch ∧ (compareSegments u.release v.release).isLE = true :=
  release_of_le (Version.le_of_lt huv)

end Order

end Version

end StubSync
