/-
What tells one change of a stub package from another.

A branch and a key name the stub package, the kind of the change and the version.
All three are read back from either of them, since no kind and no spelling of a
version has the mark that stands in front of it.  The twin of a branch is no
such name, unless the hyphen and the number of the twin end a local label.
-/
import StubSync.Proofs.Proposal.Branch
import StubSync.Proofs.Version.Label

namespace StubSync

namespace Text

/-- Where texts end without `mark` behind one, the ends are the same. -/
theorem eq_of_mark_append {mark : Char} {left right before after : List Char}
    (hbefore : mark ∉ before) (hafter : mark ∉ after)
    (heq : left ++ mark :: before = right ++ mark :: after) : left = right ∧ before = after := by
  have hreverse := congrArg List.reverse heq
  simp only [List.reverse_append, List.reverse_cons, List.append_assoc, List.singleton_append]
    at hreverse
  have hends : before.reverse = after.reverse :=
    eq_of_append_mark (by simpa using hbefore) (by simpa using hafter) hreverse
  rw [List.reverse_inj] at hends
  subst hends
  exact ⟨List.append_cancel_right heq, rfl⟩

end Text

namespace Proposal

/-- A proposable action on a stub package; its version has been read. -/
structure Change where
  stub : String
  action : Action
  version : Version
  isStubName : IsStubName stub
  isTarget : action.target? = some version
  isRead : ∃ text, Version.parse text = .ok version

namespace Change

variable (first second : Change)

/-- The changes are of the same kind, to the same version of the same package. -/
def Same : Prop :=
  first.stub = second.stub ∧ first.action.kind = second.action.kind ∧
    toString first.version = toString second.version

/-- The changes differ in the local labels of their versions, of which the second
one ends in the mark of a twin. -/
def Extended : Prop :=
  first.stub = second.stub ∧ first.action.kind = second.action.kind ∧
    ∃ label, first.version.localLabel = some label ∧
      second.version = { first.version with localLabel := some (label ++ twinMark) }

def branch : String :=
  branchLead first.stub ++ s!"{first.action.kind}-{first.version}"

def key : String :=
  s!"{first.stub}:{first.action.kind}:{first.version}"

theorem branch?_eq : branch? first.stub first.action = some first.branch := by
  rw [branch?, first.isTarget]
  rfl

theorem dedupKey?_eq : dedupKey? first.stub first.action = some first.key := by
  rw [dedupKey?, first.isTarget]
  rfl

theorem wellFormed : first.version.WellFormed :=
  Version.wellFormed_iff.2 first.isRead

theorem kind_toList : first.action.kind.toList = "bump".toList ∨
    first.action.kind.toList = "obsolete".toList := by
  have htarget := first.isTarget
  cases haction : first.action with
  | update current target => exact Or.inl rfl
  | markObsolete since => exact Or.inr rfl
  | rest reason =>
      rw [haction] at htarget
      cases htarget
  | review reason =>
      rw [haction] at htarget
      cases htarget

theorem not_mem_kind {c : Char} (hbump : c ∉ "bump".toList) (hobsolete : c ∉ "obsolete".toList) :
    c ∉ first.action.kind.toList := by
  rcases first.kind_toList with hkind | hkind
  · rwa [hkind]
  · rwa [hkind]

theorem not_mem_version {c : Char} (hc : Version.isPlain c = false) :
    c ∉ (toString first.version).toList := by
  rw [Version.toList_toString]
  intro hmem
  rw [Version.isPlain_of_mem_spell first.wellFormed c hmem] at hc
  cases hc

theorem branch_toList : first.branch.toList = (branchRoot ++ "/").toList ++
    (first.stub.toList ++ '/' :: (first.action.kind.toList ++
      '-' :: (toString first.version).toList)) := by
  simp only [branch, branchLead, String.toList_append, List.append_assoc]
  rfl

theorem key_toList : first.key.toList = (first.stub.toList ++ ':' :: first.action.kind.toList) ++
    ':' :: (toString first.version).toList := by
  simp only [key, String.toList_append, List.append_assoc]
  rfl

/-- Stub package, kind and version are read back from a branch that may have
something behind it. -/
theorem branch_append_eq_iff (more : String) :
    first.branch ++ more = second.branch ↔
      first.stub = second.stub ∧ first.action.kind = second.action.kind ∧
        toString first.version ++ more = toString second.version := by
  rw [← String.toList_inj, String.toList_append, branch_toList, branch_toList]
  constructor
  · intro hsame
    simp only [List.append_assoc, List.cons_append] at hsame
    have hrest := List.append_cancel_left hsame
    have hstub := Text.eq_of_append_mark first.isStubName second.isStubName hrest
    rw [hstub] at hrest
    have hbehind := (List.cons.inj (List.append_cancel_left hrest)).2
    have hkind := Text.eq_of_append_mark (first.not_mem_kind (by decide) (by decide))
      (second.not_mem_kind (by decide) (by decide)) hbehind
    rw [hkind] at hbehind
    have hversion := (List.cons.inj (List.append_cancel_left hbehind)).2
    rw [← String.toList_append] at hversion
    exact ⟨String.toList_inj.1 hstub, String.toList_inj.1 hkind, String.toList_inj.1 hversion⟩
  · rintro ⟨hstub, hkind, hversion⟩
    simp only [hstub, hkind, ← hversion, String.toList_append, List.append_assoc,
      List.cons_append]

theorem branch_eq_iff : first.branch = second.branch ↔ first.Same second := by
  have happend := branch_append_eq_iff first second ""
  rwa [String.append_empty, String.append_empty] at happend

theorem key_eq_iff : first.key = second.key ↔ first.Same second := by
  rw [← String.toList_inj, key_toList, key_toList]
  constructor
  · intro hsame
    obtain ⟨hfront, hversion⟩ := Text.eq_of_mark_append (first.not_mem_version (by decide))
      (second.not_mem_version (by decide)) hsame
    obtain ⟨hstub, hkind⟩ := Text.eq_of_mark_append
      (first.not_mem_kind (by decide) (by decide)) (second.not_mem_kind (by decide) (by decide))
      hfront
    exact ⟨String.toList_inj.1 hstub, String.toList_inj.1 hkind, String.toList_inj.1 hversion⟩
  · rintro ⟨hstub, hkind, hversion⟩
    rw [hstub, hkind, hversion]

/-- The twin of a branch is the branch of another change only where the mark of the
twin goes on with a local label. -/
theorem twinBranch_eq_iff : twinBranch first.branch = second.branch ↔ first.Extended second := by
  have htwin := branch_append_eq_iff first second twinMark
  rwa [Version.toString_append_eq_iff first.wellFormed second.wellFormed (by decide) (by decide)]
    at htwin

theorem isOf_branch : isOf first.stub first.branch = true :=
  branch?_isOf first.branch?_eq

theorem isOf_iff {branch : String} (hbranch : isOf second.stub branch = true) :
    isOf first.stub branch = true ↔ first.stub = second.stub := by
  constructor
  · intro hof
    exact eq_of_isOf first.isStubName second.isStubName hof hbranch
  · intro hstub
    rw [hstub]
    exact hbranch

theorem isSameChange_branch_iff :
    Submission.isSameChange first.branch second.branch = true ↔
      first.Same second ∨ first.Extended second := by
  rw [Submission.isSameChange_iff, ← branch_eq_iff, ← twinBranch_eq_iff]
  exact or_congr eq_comm eq_comm

theorem isSameChange_twinBranch_iff :
    Submission.isSameChange first.branch (twinBranch second.branch) = true ↔
      first.Same second ∨ second.Extended first := by
  rw [Submission.isSameChange_iff, twinBranch_inj, ← branch_eq_iff, ← twinBranch_eq_iff, or_comm]
  exact or_congr eq_comm Iff.rfl

end Change

/-- Branches and keys tell changes apart, and branches tell stub packages apart.
A proposal is taken for one of another change just if the version of one of them is
that of the other with the mark of a twin at the end of its local label. -/
theorem branches_identify (first second : Change) :
    (branch? first.stub first.action = branch? second.stub second.action ↔ first.Same second) ∧
    (dedupKey? first.stub first.action = dedupKey? second.stub second.action ↔
      first.Same second) ∧
    ∃ branch other, branch? first.stub first.action = some branch ∧
      branch? second.stub second.action = some other ∧
      (isOf first.stub other = true ↔ first.stub = second.stub) ∧
      (isOf first.stub (twinBranch other) = true ↔ first.stub = second.stub) ∧
      (twinBranch branch = other ↔ first.Extended second) ∧
      (Submission.isSameChange branch other = true ↔
        first.Same second ∨ first.Extended second) ∧
      (Submission.isSameChange branch (twinBranch other) = true ↔
        first.Same second ∨ second.Extended first) := by
  rw [first.branch?_eq, second.branch?_eq, first.dedupKey?_eq, second.dedupKey?_eq,
    Option.some_inj, Option.some_inj, Change.branch_eq_iff, Change.key_eq_iff]
  refine ⟨Iff.rfl, Iff.rfl, first.branch, second.branch, rfl, rfl, ?_⟩
  exact ⟨Change.isOf_iff _ _ second.isOf_branch,
    Change.isOf_iff _ _ (twinBranch_isOf second.isOf_branch), Change.twinBranch_eq_iff _ _,
    Change.isSameChange_branch_iff _ _, Change.isSameChange_twinBranch_iff _ _⟩

namespace IdentityExample

/-- A step to a version with a local label. -/
def labelled : Change where
  stub := "foo"
  action := .update ⟨0, [1, 0], none, none, none, none⟩ ⟨0, [1, 0], none, none, none, some "abc"⟩
  version := ⟨0, [1, 0], none, none, none, some "abc"⟩
  isStubName := by decide
  isTarget := rfl
  isRead := ⟨"1.0+abc", rfl⟩

/-- A step to another version, whose label ends like the name of a twin. -/
def relabelled : Change where
  stub := "foo"
  action := .update ⟨0, [1, 0], none, none, none, none⟩
    ⟨0, [1, 0], none, none, none, some "abc-2"⟩
  version := ⟨0, [1, 0], none, none, none, some "abc-2"⟩
  isStubName := by decide
  isTarget := rfl
  isRead := ⟨"1.0+abc-2", rfl⟩

/-- A rejected proposal of the one change stands in the way of the other one. -/
theorem twin_of_another_change :
    ¬ labelled.Same relabelled ∧
      (branch? labelled.stub labelled.action).map twinBranch =
        branch? relabelled.stub relabelled.action ∧
      dedupKey? labelled.stub labelled.action ≠ dedupKey? relabelled.stub relabelled.action ∧
      Submission.blocking? "stubsabot/foo/bump-1.0+abc"
          [⟨1, "stubsabot/foo/bump-1.0+abc-2", "url", .closed⟩] =
        some (.previouslyRejected, ⟨1, "stubsabot/foo/bump-1.0+abc-2", "url", .closed⟩) := by
  refine ⟨?_, by decide +kernel, by decide +kernel, by decide +kernel⟩
  unfold Change.Same
  decide +kernel

end IdentityExample

end Proposal

end StubSync
