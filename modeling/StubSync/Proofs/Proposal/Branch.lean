/-
The branches of proposals, and which stub package they belong to.

Names of stub packages hold no slash, so a branch that starts with the lead of
one package starts with the lead of no other.
-/
import StubSync.Proofs.Text.Pieces
import StubSync.Proposal.Submission

namespace StubSync

namespace Proposal

/-- The name of a stub package is the name of a directory. -/
def IsStubName (stub : String) : Prop :=
  '/' ∉ stub.toList

instance (stub : String) : Decidable (IsStubName stub) :=
  inferInstanceAs (Decidable ('/' ∉ stub.toList))

/-- The branch is of the stub package. -/
def isOf (stub branch : String) : Bool :=
  Text.startsWith branch (branchLead stub)

theorem branch?_isOf {stub branch : String} {action : Action}
    (hbranch : branch? stub action = some branch) : isOf stub branch = true := by
  simp only [branch?, Option.map_eq_some_iff] at hbranch
  obtain ⟨version, _, rfl⟩ := hbranch
  exact Text.startsWith_append _ _

theorem twinBranch_isOf {stub branch : String} (hbranch : isOf stub branch = true) :
    isOf stub (twinBranch branch) = true := by
  obtain ⟨rest, hrest⟩ := Text.startsWith_iff.1 hbranch
  refine Text.startsWith_iff.2 ⟨rest ++ twinMark.toList, ?_⟩
  rw [twinBranch, String.toList_append, hrest, List.append_assoc]

theorem twinBranch_ne (branch : String) : twinBranch branch ≠ branch := by
  intro hsame
  have hlength := congrArg (fun text => text.toList.length) hsame
  simp only [twinBranch, String.toList_append, List.length_append] at hlength
  have hmark : twinMark.toList.length = 2 := by decide
  omega

theorem twinBranch_inj {branch other : String} :
    twinBranch branch = twinBranch other ↔ branch = other := by
  rw [twinBranch, twinBranch, ← String.toList_inj, String.toList_append, String.toList_append,
    List.append_cancel_right_eq, String.toList_inj]

/-- No branch is of two stub packages. -/
theorem eq_of_isOf {stub other branch : String} (hstub : IsStubName stub)
    (hother : IsStubName other) (hbranch : isOf stub branch = true)
    (hbranch' : isOf other branch = true) : stub = other := by
  obtain ⟨rest, hrest⟩ := Text.startsWith_iff.1 hbranch
  obtain ⟨rest', hrest'⟩ := Text.startsWith_iff.1 hbranch'
  have hsame := hrest.symm.trans hrest'
  simp only [branchLead, String.toList_append, List.append_assoc] at hsame
  have hnames := List.append_cancel_left (List.append_cancel_left hsame)
  exact String.toList_inj.1 (Text.eq_of_append_mark hstub hother hnames)

/-- A proposal changes the one file whose contents have been edited. -/
theorem exists_of_build {package : Package} {action : Action} {proposal : Proposal}
    (hbuild : build package action = .ok proposal) :
    proposal.package = package.name ∧ proposal.action = action ∧
      branch? package.name action = some proposal.branch ∧
      ∃ contents, Metadata.edit package action = .ok contents ∧
        proposal.changes = [⟨Path.withSlashes package.metadataPath, contents⟩] ∧
        proposal.diff = Patch.unified package.metadataPath package.metadataSource contents := by
  cases htarget : action.target? with
  | none => simp [build, htarget, throw, throwThe, MonadExceptOf.throw] at hbuild
  | some version =>
      simp only [build, htarget] at hbuild
      cases hedit : Metadata.edit package action with
      | error error => simp [hedit, bind, Except.bind] at hbuild
      | ok contents =>
          simp only [hedit, bind, Except.bind, pure, Except.pure, Except.ok.injEq] at hbuild
          subst hbuild
          exact ⟨rfl, rfl, by simp [branch?, htarget], contents, rfl, rfl, rfl⟩

/-- A proposal is made on the branch of its action. -/
theorem branch?_of_build {package : Package} {action : Action} {proposal : Proposal}
    (hbuild : build package action = .ok proposal) :
    branch? package.name action = some proposal.branch :=
  (exists_of_build hbuild).2.2.1

end Proposal

namespace Submission

theorem isSameChange_iff {branch candidate : String} :
    isSameChange branch candidate = true ↔
      candidate = branch ∨ candidate = Proposal.twinBranch branch := by
  simp [isSameChange]

end Submission

end StubSync
