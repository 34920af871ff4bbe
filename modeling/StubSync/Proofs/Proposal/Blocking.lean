/-
Which proposals stand in the way of another one.

It is known from the branches and the states of the proposals that are shown.
A proposal on the branch or on its twin counts by its state, wherever in the
listing it is; only where there is none, the first open proposal on another
branch counts.  So another order of the listing changes at most which branch is
named.
-/
import StubSync.Proofs.Hosting.Board

namespace StubSync

namespace Submission

/-- A proposal with nothing but its branch and its state. -/
def ofMark (mark : String × ProposalState) : Existing :=
  ⟨0, mark.1, "", mark.2⟩

/-- Why a proposal is in the way is known from branches and states. -/
theorem blocking?_ofMark (branch : String) (existing : List Existing) :
    (blocking? branch ((existing.map Existing.mark).map ofMark)).map Prod.fst =
      (blocking? branch existing).map Prod.fst := by
  have hfilter : ((existing.map Existing.mark).map ofMark).filter
      (fun found => isSameChange branch found.branch) =
      ((existing.filter fun found => isSameChange branch found.branch).map Existing.mark).map
        ofMark := by
    rw [List.filter_map, List.filter_map]
    rfl
  have hfind : ∀ (same : List Existing) (test : Existing → Bool),
      ((same.map Existing.mark).map ofMark).find? test =
        (same.find? fun found => test (ofMark found.mark)).map fun found =>
          ofMark found.mark := by
    intro same test
    rw [List.map_map, List.find?_map]
    rfl
  simp only [blocking?, hfilter, hfind, Option.orElse_eq_orElse, Option.orElse_eq_or,
    Option.map_or, List.map_findSome?, Option.map_map, Function.comp_def]
  rfl

/-- The proposal is on the branch, or on the branch with `-2` at its end. -/
def IsOn (branch : String) (found : Existing) : Prop :=
  found.branch = branch ∨ found.branch = branch ++ "-2"

theorem isOn_iff {branch : String} {found : Existing} :
    IsOn branch found ↔ isSameChange branch found.branch = true :=
  isSameChange_iff.symm

/-- The proposal `found` of a listing is the reason why none is opened on the
branch.  On the branch and its twin, what is open comes before what was merged,
and what was merged before what was closed. -/
inductive Stands (branch : String) (existing : List Existing) : SkipReason → Existing → Prop
  | duplicate {found : Existing} (hmem : found ∈ existing) (hon : IsOn branch found)
      (hstate : found.state = .opened) : Stands branch existing .duplicate found
  | alreadyMerged {found : Existing} (hmem : found ∈ existing) (hon : IsOn branch found)
      (hstate : found.state = .merged)
      (hopened : ∀ other ∈ existing, IsOn branch other → other.state ≠ .opened) :
      Stands branch existing .alreadyMerged found
  | previouslyRejected {found : Existing} (hmem : found ∈ existing) (hon : IsOn branch found)
      (hclosed : ∀ other ∈ existing, IsOn branch other → other.state = .closed) :
      Stands branch existing .previouslyRejected found
  | proposalPending {earlier later : List Existing} {found : Existing}
      (hlist : existing = earlier ++ found :: later) (hstate : found.state = .opened)
      (hfirst : ∀ other ∈ earlier, other.state ≠ .opened)
      (hoff : ∀ other ∈ existing, ¬ IsOn branch other) :
      Stands branch existing (.proposalPending found.branch) found

section Deciding

variable {branch : String} {existing : List Existing}

/-- Nothing blocks where nothing is of the same change and nothing is open. -/
theorem blocking?_eq_none_iff :
    blocking? branch existing = none ↔
      ∀ found ∈ existing, ¬ IsOn branch found ∧ found.state ≠ .opened := by
  simp only [blocking?, Option.orElse_eq_orElse, Option.orElse_eq_or, Option.or_eq_none_iff,
    List.findSome?_eq_none_iff, Option.map_eq_none_iff, List.find?_eq_none, isOn_iff]
  constructor
  · rintro ⟨hsame, hother⟩ found hfound
    have hdifferent : isSameChange branch found.branch ≠ true := by
      intro hon
      obtain ⟨reason, hverdict⟩ : ∃ reason, (found.state, reason) ∈ verdicts := by
        cases found.state <;> simp [verdicts]
      exact hsame _ hverdict found (List.mem_filter.2 ⟨hfound, hon⟩) (beq_self_eq_true _)
    refine ⟨hdifferent, fun hopened => hother found hfound ?_⟩
    simp [hopened, hdifferent]
  · intro hfree
    constructor
    · intro verdict _ found hfound
      obtain ⟨hmem, hon⟩ := List.mem_filter.1 hfound
      exact absurd hon (hfree found hmem).1
    · intro found hfound
      simp [(hfree found hfound).2]

theorem blocking?_isSome_iff :
    (blocking? branch existing).isSome = true ↔
      ∃ found ∈ existing, IsOn branch found ∨ found.state = .opened := by
  rw [← Option.ne_none_iff_isSome, Ne, blocking?_eq_none_iff]
  simp only [Classical.not_forall, Classical.not_and_iff_not_or_not, Classical.not_not, exists_prop]

/-- The first verdict decides whose state a proposal of the same change has. -/
theorem blocking?_of_verdict (before : List (ProposalState × SkipReason))
    {after : List (ProposalState × SkipReason)} {state : ProposalState} {reason : SkipReason}
    (hverdicts : verdicts = before ++ (state, reason) :: after)
    (hearlier : ∀ verdict ∈ before, ∀ other ∈ existing, IsOn branch other →
      other.state ≠ verdict.1)
    (hexists : ∃ found ∈ existing, IsOn branch found ∧ found.state = state) :
    ∃ found ∈ existing, IsOn branch found ∧ found.state = state ∧
      blocking? branch existing = some (reason, found) := by
  let same := existing.filter fun found => isSameChange branch found.branch
  have hsame : ∀ found, found ∈ same ↔ found ∈ existing ∧ IsOn branch found := by
    intro found
    rw [List.mem_filter, isOn_iff]
  have hfind : (same.find? fun found => found.state == state).isSome = true := by
    obtain ⟨found, hmem, hon, hstate⟩ := hexists
    exact List.find?_isSome.2 ⟨found, (hsame found).2 ⟨hmem, hon⟩, beq_iff_eq.2 hstate⟩
  obtain ⟨found, hfound⟩ := Option.isSome_iff_exists.1 hfind
  obtain ⟨hmem, hon⟩ := (hsame found).1 (List.mem_of_find?_eq_some hfound)
  have hstate : (found.state == state) = true := by simpa using List.find?_some hfound
  refine ⟨found, hmem, hon, beq_iff_eq.1 hstate, ?_⟩
  simp only [blocking?, hverdicts, List.findSome?_append]
  rw [(List.findSome?_eq_none_iff (l := before)).2]
  · simp only [List.findSome?_cons, same, hfound, Option.map_some, Option.none_or]
    rfl
  · intro verdict hverdict
    refine Option.map_eq_none_iff.2 (List.find?_eq_none.2 fun other hother => ?_)
    obtain ⟨hmem, hon⟩ := (hsame other).1 hother
    simpa using hearlier verdict hverdict other hmem hon

/-- An open proposal of the same change makes another one a duplicate. -/
theorem blocking?_of_opened {opened : String} (hsame : isSameChange branch opened = true)
    (hopened : (opened, .opened) ∈ existing.map Existing.mark) :
    ∃ found, blocking? branch existing = some (.duplicate, found) := by
  obtain ⟨found, hmem, hmark⟩ := List.mem_map.1 hopened
  obtain ⟨rfl, hstate⟩ := Prod.mk.inj hmark
  obtain ⟨first, _, _, _, hblocking⟩ := blocking?_of_verdict [] rfl (List.forall_mem_nil _)
    ⟨found, hmem, isOn_iff.2 hsame, hstate⟩
  exact ⟨first, hblocking⟩

theorem blocking?_of_pending {earlier later : List Existing} {found : Existing}
    (hlist : existing = earlier ++ found :: later) (hstate : found.state = .opened)
    (hfirst : ∀ other ∈ earlier, other.state ≠ .opened)
    (hoff : ∀ other ∈ existing, ¬ IsOn branch other) :
    blocking? branch existing = some (.proposalPending found.branch, found) := by
  have hsame : (existing.filter fun found => isSameChange branch found.branch) = [] :=
    List.filter_eq_nil_iff.2 fun other hother hon => hoff other hother (isOn_iff.2 hon)
  have hfind : (existing.find? fun found =>
      found.state == .opened && !isSameChange branch found.branch) = some found := by
    refine List.find?_eq_some_iff_append.2 ⟨?_, earlier, later, hlist, fun other hother => ?_⟩
    · have hmem : found ∈ existing := by simp [hlist]
      have hdifferent := hoff found hmem
      rw [isOn_iff] at hdifferent
      simp [hstate, hdifferent]
    · simp [hfirst other hother]
  simp only [blocking?, hsame, hfind, verdicts, List.findSome?_cons, List.findSome?_nil,
    List.find?_nil, Option.map_none, Option.map_some]
  rfl

/-- What stands in the way decides about the reason that is given. -/
theorem Stands.blocking? {reason : SkipReason} {found : Existing}
    (hstands : Stands branch existing reason found) :
    ∃ first, blocking? branch existing = some (reason, first) ∧
      Stands branch existing reason first := by
  cases hstands with
  | duplicate hmem hon hstate =>
      obtain ⟨first, hmem, hon, hstate, hblocking⟩ :=
        blocking?_of_verdict [] rfl (List.forall_mem_nil _) ⟨found, hmem, hon, hstate⟩
      exact ⟨first, hblocking, .duplicate hmem hon hstate⟩
  | alreadyMerged hmem hon hstate hopened =>
      have hearlier : ∀ verdict ∈ [(ProposalState.opened, SkipReason.duplicate)],
          ∀ other ∈ existing, IsOn branch other → other.state ≠ verdict.1 :=
        List.forall_mem_singleton.2 hopened
      obtain ⟨first, hmem, hon, hstate, hblocking⟩ :=
        blocking?_of_verdict _ rfl hearlier ⟨found, hmem, hon, hstate⟩
      exact ⟨first, hblocking, .alreadyMerged hmem hon hstate hopened⟩
  | previouslyRejected hmem hon hclosed =>
      let before : List (ProposalState × SkipReason) :=
        [(.opened, .duplicate), (.merged, .alreadyMerged)]
      have hbefore : ∀ verdict ∈ before, ProposalState.closed ≠ verdict.1 := by decide
      have hearlier : ∀ verdict ∈ before, ∀ other ∈ existing, IsOn branch other →
          other.state ≠ verdict.1 := by
        intro verdict hverdict other hother hon
        rw [hclosed other hother hon]
        exact hbefore verdict hverdict
      obtain ⟨first, hmem, hon, _, hblocking⟩ :=
        blocking?_of_verdict before rfl hearlier ⟨found, hmem, hon, hclosed found hmem hon⟩
      exact ⟨first, hblocking, .previouslyRejected hmem hon hclosed⟩
  | proposalPending hlist hstate hfirst hoff =>
      exact ⟨found, blocking?_of_pending hlist hstate hfirst hoff,
        .proposalPending hlist hstate hfirst hoff⟩

/-- Of what is of the same change or open, something stands in the way. -/
theorem exists_stands (hexists : ∃ found ∈ existing, IsOn branch found ∨ found.state = .opened) :
    ∃ reason found, Stands branch existing reason found := by
  by_cases hopened : ∃ found ∈ existing, IsOn branch found ∧ found.state = .opened
  · obtain ⟨found, hmem, hon, hstate⟩ := hopened
    exact ⟨_, found, .duplicate hmem hon hstate⟩
  have hopened : ∀ other ∈ existing, IsOn branch other → other.state ≠ .opened :=
    fun other hother hon hstate => hopened ⟨other, hother, hon, hstate⟩
  by_cases hmerged : ∃ found ∈ existing, IsOn branch found ∧ found.state = .merged
  · obtain ⟨found, hmem, hon, hstate⟩ := hmerged
    exact ⟨_, found, .alreadyMerged hmem hon hstate hopened⟩
  have hclosed : ∀ other ∈ existing, IsOn branch other → other.state = .closed := by
    intro other hother hon
    cases hstate : other.state with
    | opened => exact absurd hstate (hopened other hother hon)
    | merged => exact absurd ⟨other, hother, hon, hstate⟩ hmerged
    | closed => rfl
  by_cases hsame : ∃ found ∈ existing, IsOn branch found
  · obtain ⟨found, hmem, hon⟩ := hsame
    exact ⟨_, found, .previouslyRejected hmem hon hclosed⟩
  have hoff : ∀ other ∈ existing, ¬ IsOn branch other :=
    fun other hother hon => hsame ⟨other, hother, hon⟩
  obtain ⟨found, hmem, hfound⟩ := hexists
  have hfind : (existing.find? fun found => found.state == .opened).isSome = true :=
    List.find?_isSome.2 ⟨found, hmem, beq_iff_eq.2 (hfound.resolve_left (hoff found hmem))⟩
  obtain ⟨first, hfirst⟩ := Option.isSome_iff_exists.1 hfind
  obtain ⟨hstate, earlier, later, hlist, hearlier⟩ := List.find?_eq_some_iff_append.1 hfirst
  refine ⟨_, first, .proposalPending hlist (beq_iff_eq.1 hstate) (fun other hother => ?_) hoff⟩
  simpa using hearlier other hother

/-- What blocks a proposal stands in its way. -/
theorem stands_of_blocking? {reason : SkipReason} {found : Existing}
    (hblocking : blocking? branch existing = some (reason, found)) :
    Stands branch existing reason found := by
  have hexists := blocking?_isSome_iff.1 (Option.isSome_of_eq_some hblocking)
  obtain ⟨other, _, hstands⟩ := exists_stands hexists
  obtain ⟨first, hfirst, hstands⟩ := hstands.blocking?
  rw [hblocking] at hfirst
  cases hfirst
  exact hstands

end Deciding

/-- The reason without the branch that it names. -/
def unnamed : SkipReason → SkipReason
  | .proposalPending _ => .proposalPending ""
  | reason => reason

/-- In another order of the listing, something stands in the way for the same
reason. -/
theorem Stands.perm {branch : String} {existing other : List Existing} {reason : SkipReason}
    {found : Existing} (hstands : Stands branch existing reason found)
    (hperm : existing.Perm other) :
    ∃ reason' found', Stands branch other reason' found' ∧ unnamed reason' = unnamed reason := by
  cases hstands with
  | duplicate hmem hon hstate =>
      exact ⟨_, found, .duplicate (hperm.mem_iff.1 hmem) hon hstate, rfl⟩
  | alreadyMerged hmem hon hstate hopened =>
      exact ⟨_, found, .alreadyMerged (hperm.mem_iff.1 hmem) hon hstate
        fun other hother => hopened other (hperm.mem_iff.2 hother), rfl⟩
  | previouslyRejected hmem hon hclosed =>
      exact ⟨_, found, .previouslyRejected (hperm.mem_iff.1 hmem) hon
        fun other hother => hclosed other (hperm.mem_iff.2 hother), rfl⟩
  | proposalPending hlist hstate hfirst hoff =>
      have hmem : found ∈ other := hperm.mem_iff.1 (by simp [hlist])
      obtain ⟨reason', found', hstands⟩ := exists_stands ⟨found, hmem, Or.inr hstate⟩
      refine ⟨reason', found', hstands, ?_⟩
      -- Nothing is on the branch, so the first three cases cannot be.
      cases hstands with
      | duplicate hmem hon _ => exact absurd hon (hoff _ (hperm.mem_iff.2 hmem))
      | alreadyMerged hmem hon _ _ => exact absurd hon (hoff _ (hperm.mem_iff.2 hmem))
      | previouslyRejected hmem hon _ => exact absurd hon (hoff _ (hperm.mem_iff.2 hmem))
      | proposalPending _ _ _ _ => rfl

/-- A proposal is blocked exactly where something is on its branch or the twin,
or open elsewhere; what is given as the reason stands in its way, and whatever
stands in its way tells the reason.  Another order of the listing blocks as
well, and for the same reason but for the branch that it names. -/
theorem blocking_decides (branch : String) (existing : List Existing) :
    ((blocking? branch existing).isSome = true ↔
      ∃ found ∈ existing, IsOn branch found ∨ found.state = .opened) ∧
    (∀ reason found, blocking? branch existing = some (reason, found) →
      Stands branch existing reason found) ∧
    (∀ reason found, Stands branch existing reason found →
      (blocking? branch existing).map Prod.fst = some reason) ∧
    ∀ other, existing.Perm other →
      (blocking? branch other).map (unnamed ∘ Prod.fst) =
        (blocking? branch existing).map (unnamed ∘ Prod.fst) := by
  refine ⟨blocking?_isSome_iff, fun reason found => stands_of_blocking?, ?_, ?_⟩
  · intro reason found hstands
    obtain ⟨first, hblocking, _⟩ := hstands.blocking?
    rw [hblocking, Option.map_some]
  · intro other hperm
    cases hblocking : blocking? branch existing with
    | none =>
        have hfree := blocking?_eq_none_iff.1 hblocking
        have hother : blocking? branch other = none :=
          blocking?_eq_none_iff.2 fun found hfound => hfree found (hperm.mem_iff.2 hfound)
        rw [hother]
    | some blocking =>
        obtain ⟨reason, found, hstands, hreason⟩ := (stands_of_blocking? hblocking).perm hperm
        obtain ⟨first, hfirst, _⟩ := hstands.blocking?
        rw [hfirst]
        exact congrArg some hreason

namespace BlockingExample

def branch : String := "stubsabot/foo/bump-1.1"

/-- Open proposals on branches that only look like the branch and its twin. -/
def lookalikes : List Existing :=
  [⟨7, "stubsabot/foo/bump-1.1-22", "https://example.com/pull/7", .opened⟩,
    ⟨5, "stubsabot/foo/bump-1.10", "https://example.com/pull/5", .opened⟩]

def merged : Existing :=
  ⟨2, "stubsabot/foo/bump-1.1", "https://example.com/pull/2", .merged⟩

/-- What was closed is shown before what was merged. -/
def mixed : List Existing :=
  lookalikes ++ [⟨3, "stubsabot/foo/bump-1.1-2", "https://example.com/pull/3", .closed⟩, merged]

/-- The merged proposal decides wherever it is shown; of the lookalikes, the one
is named that is shown first. -/
theorem merged_stands :
    lookalikes.Perm lookalikes.reverse ∧ Stands branch mixed .alreadyMerged merged ∧
      (blocking? branch lookalikes.reverse).map (unnamed ∘ Prod.fst) =
        (blocking? branch lookalikes).map (unnamed ∘ Prod.fst) ∧
      (blocking? branch lookalikes).map Prod.fst =
        some (.proposalPending "stubsabot/foo/bump-1.1-22") ∧
      (blocking? branch lookalikes.reverse).map Prod.fst =
        some (.proposalPending "stubsabot/foo/bump-1.10") := by
  have hperm : lookalikes.Perm lookalikes.reverse := (List.reverse_perm lookalikes).symm
  have hblocking : blocking? branch mixed = some (.alreadyMerged, merged) := by decide +kernel
  exact ⟨hperm, (blocking_decides branch mixed).2.1 _ _ hblocking,
    (blocking_decides branch lookalikes).2.2.2 _ hperm, by decide +kernel, by decide +kernel⟩

end BlockingExample

end Submission

end StubSync
