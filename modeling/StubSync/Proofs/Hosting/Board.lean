/-
Hosting services whose answers depend on nothing but what stands on them.

A board shows proposals, and some branches are taken on it.  A listing gives the
proposals under a lead, in order.  A publication conflicts exactly on a taken
branch, and otherwise opens one proposal somewhere among the others.  So what a
board shows of one stub package is changed by publications on the branches of
that package only.
-/
import Mathlib.Data.List.Perm.Subperm
import StubSync.Hosting.Memory
import StubSync.Proofs.Proposal.Branch

namespace StubSync

/-- What counts of a proposal that exists: its branch and its state. -/
def Existing.mark (existing : Existing) : String × ProposalState :=
  (existing.branch, existing.state)

namespace Hosting

structure Board (σ : Type) where
  answer : (question : Question) → σ → Reply question × σ
  proposals : σ → List Existing
  taken : σ → String → Bool
  /-- The address of a proposal that is opened on a branch. -/
  address : String → String

namespace Board

variable {σ : Type}

def marks (board : Board σ) (state : σ) : List (String × ProposalState) :=
  (board.proposals state).map Existing.mark

/-- The marks on branches of some kind. -/
def marksOf (board : Board σ) (kind : String → Bool) (state : σ) :
    List (String × ProposalState) :=
  (board.marks state).filter fun mark => kind mark.1

/-- Nothing that is shown has changed. -/
structure Same (board : Board σ) (before after : σ) : Prop where
  proposals : board.proposals after = board.proposals before
  taken : board.taken after = board.taken before

/-- One proposal has been opened on the branch, which is taken now. -/
structure Opens (board : Board σ) (branch : String) (before after : σ) : Prop where
  proposals : ∃ earlier opened later, board.proposals before = earlier ++ later ∧
    board.proposals after = earlier ++ opened :: later ∧ opened.mark = (branch, .opened)
  taken : ∀ other, board.taken after other = (other == branch || board.taken before other)

structure IsExact (board : Board σ) : Prop where
  find : ∀ query state,
    (board.answer (.find query) state).1 =
        .ok ((board.proposals state).filter fun existing => query.covers existing.branch) ∧
      board.Same state (board.answer (.find query) state).2
  conflict : ∀ proposal state, board.taken state proposal.branch = true →
    (board.answer (.publish proposal) state).1 = .error (.conflict proposal.branch) ∧
      board.Same state (board.answer (.publish proposal) state).2
  publish : ∀ proposal state, board.taken state proposal.branch = false →
    (∃ published, (board.answer (.publish proposal) state).1 = .ok published ∧
      published.url = board.address proposal.branch) ∧
      board.Opens proposal.branch state (board.answer (.publish proposal) state).2

section Marks

variable {board : Board σ} {before after : σ} {branch : String} {kind : String → Bool}

theorem Same.marksOf (hsame : board.Same before after) (kind : String → Bool) :
    board.marksOf kind after = board.marksOf kind before := by
  rw [Board.marksOf, Board.marksOf, marks, marks, hsame.proposals]

theorem Opens.exists_marks (hopens : board.Opens branch before after) :
    ∃ earlier later, board.marks before = earlier ++ later ∧
      board.marks after = earlier ++ (branch, .opened) :: later := by
  obtain ⟨earlier, opened, later, hbefore, hafter, hmark⟩ := hopens.proposals
  refine ⟨earlier.map Existing.mark, later.map Existing.mark, ?_, ?_⟩
  · rw [marks, hbefore, List.map_append]
  · rw [marks, hafter, List.map_append, List.map_cons, hmark]

theorem Opens.marksOf_of_not (hopens : board.Opens branch before after)
    (hkind : kind branch = false) : board.marksOf kind after = board.marksOf kind before := by
  obtain ⟨earlier, later, hbefore, hafter⟩ := hopens.exists_marks
  simp [Board.marksOf, hbefore, hafter, hkind]

theorem Opens.marksOf_perm (hopens : board.Opens branch before after)
    (hkind : kind branch = true) :
    (board.marksOf kind after).Perm ((branch, .opened) :: board.marksOf kind before) := by
  obtain ⟨earlier, later, hbefore, hafter⟩ := hopens.exists_marks
  simp only [Board.marksOf, hbefore, hafter, List.filter_append, List.filter_cons, hkind,
    ↓reduceIte]
  exact List.perm_middle

end Marks

/-- What a stub package can see of a board: the marks on its branches, and which
of its branches are taken. -/
structure Sight where
  marks : List (String × ProposalState)
  taken : String → Bool

def sight (board : Board σ) (stub : String) (state : σ) : Sight where
  marks := board.marksOf (Proposal.isOf stub) state
  taken branch := board.taken state branch && Proposal.isOf stub branch

section Sight

variable {board : Board σ} {before after : σ} {branch stub : String}

theorem Same.sight (hsame : board.Same before after) (stub : String) :
    board.sight stub after = board.sight stub before := by
  rw [Board.sight, Board.sight, hsame.marksOf, hsame.taken]

theorem Opens.sight_of_not (hopens : board.Opens branch before after)
    (hstub : Proposal.isOf stub branch = false) :
    board.sight stub after = board.sight stub before := by
  have htaken : (fun other => board.taken after other && Proposal.isOf stub other) =
      fun other => board.taken before other && Proposal.isOf stub other := by
    funext other
    rw [hopens.taken other]
    by_cases hother : other = branch
    · rw [hother, hstub, Bool.and_false, Bool.and_false]
    · rw [beq_eq_false_iff_ne.2 hother, Bool.false_or]
  rw [Board.sight, Board.sight, hopens.marksOf_of_not hstub, htaken]

theorem sight_taken (board : Board σ) (state : σ)
    (hbranch : Proposal.isOf stub branch = true) :
    (board.sight stub state).taken branch = board.taken state branch := by
  simp only [sight, hbranch, Bool.and_true]

section Exact

variable {state : σ} {query : Query} {proposal : Proposal}

/-- A listing under the lead of a stub package gives what the package sees. -/
theorem IsExact.find_sight (hboard : board.IsExact)
    (hlead : query.lead = Proposal.branchLead stub) (state : σ) :
    (∃ found, (board.answer (.find query) state).1 = .ok found ∧
      found.map Existing.mark = (board.sight stub state).marks) ∧
    board.sight stub (board.answer (.find query) state).2 = board.sight stub state := by
  obtain ⟨hfound, hsame⟩ := hboard.find query state
  refine ⟨⟨_, hfound, ?_⟩, hsame.sight stub⟩
  simp only [Board.sight, Board.marksOf, Board.marks, List.filter_map, Query.covers, hlead]
  rfl

variable (hboard : board.IsExact) (hown : Proposal.isOf stub proposal.branch = true)

include hboard hown

/-- Publishing on a branch that is seen as taken changes nothing. -/
theorem IsExact.publish_taken
    (htaken : (board.sight stub state).taken proposal.branch = true) :
    (board.answer (.publish proposal) state).1 = .error (.conflict proposal.branch) ∧
      board.sight stub (board.answer (.publish proposal) state).2 = board.sight stub state := by
  rw [sight_taken board state hown] at htaken
  obtain ⟨hreply, hsame⟩ := hboard.conflict proposal state htaken
  exact ⟨hreply, hsame.sight stub⟩

/-- Publishing on a branch that is seen as free opens a proposal there. -/
theorem IsExact.publish_free
    (hfree : (board.sight stub state).taken proposal.branch = false) :
    (∃ published, (board.answer (.publish proposal) state).1 = .ok published ∧
      published.url = board.address proposal.branch) ∧
    (board.sight stub (board.answer (.publish proposal) state).2).marks.Perm
      ((proposal.branch, .opened) :: (board.sight stub state).marks) ∧
    ∀ other, Proposal.isOf stub other = true →
      (board.sight stub (board.answer (.publish proposal) state).2).taken other =
        (other == proposal.branch || (board.sight stub state).taken other) := by
  rw [sight_taken board state hown] at hfree
  obtain ⟨hreply, hopens⟩ := hboard.publish proposal state hfree
  refine ⟨hreply, hopens.marksOf_perm hown, fun other hother => ?_⟩
  rw [sight_taken board _ hother, sight_taken board _ hother, hopens.taken other]

end Exact

end Sight

section Kinds

variable {ι : Type} {board : Board σ} {left right : σ} (members : List ι)
  (kind : ι → String → Bool)

/-- Marks are among others if they are on each of some kinds of branches, and the
same on the branches of no such kind. -/
theorem subperm_of_marksOf
    (hkinds : ∀ member ∈ members,
      (board.marksOf (kind member) left).Subperm (board.marksOf (kind member) right))
    (hothers : board.marksOf (fun branch => members.all fun member => !kind member branch) left =
      board.marksOf (fun branch => members.all fun member => !kind member branch) right) :
    (board.marks left).Subperm (board.marks right) := by
  rw [List.subperm_ext_iff]
  intro mark _
  have hcount : ∀ (chosen : String → Bool) (state : σ), chosen mark.1 = true →
      (board.marks state).count mark = (board.marksOf chosen state).count mark := by
    intro chosen state hchosen
    exact (List.count_filter (p := fun mark => chosen (Prod.fst mark)) hchosen).symm
  by_cases hmember : ∃ member ∈ members, kind member mark.1 = true
  · obtain ⟨member, hmem, hkind⟩ := hmember
    rw [hcount (kind member) left hkind, hcount (kind member) right hkind]
    exact (hkinds member hmem).count_le mark
  · have hnone : (members.all fun member => !kind member mark.1) = true := by
      simp only [List.all_eq_true, Bool.not_eq_true']
      intro member hmem
      exact eq_false_of_ne_true fun hkind => hmember ⟨member, hmem, hkind⟩
    let others := fun branch => members.all fun member => !kind member branch
    rw [hcount others left hnone, hcount others right hnone]
    exact Nat.le_of_eq (congrArg (List.count mark) hothers)

/-- Marks are the same up to their order if they are the same on each of some
kinds of branches and on the branches of no such kind. -/
theorem perm_of_marksOf
    (hkinds : ∀ member ∈ members,
      (board.marksOf (kind member) left).Perm (board.marksOf (kind member) right))
    (hothers : board.marksOf (fun branch => members.all fun member => !kind member branch) left =
      board.marksOf (fun branch => members.all fun member => !kind member branch) right) :
    (board.marks left).Perm (board.marks right) := by
  have hleft := subperm_of_marksOf members kind
    (fun member hmem => (hkinds member hmem).subperm) hothers
  have hright := subperm_of_marksOf members kind
    (fun member hmem => (hkinds member hmem).symm.subperm) hothers.symm
  exact hleft.antisymm hright

end Kinds

end Board

namespace Memory

/-- No errors wait to be given as answers. -/
def IsCalm (memory : Memory) : Prop :=
  memory.findErrors = [] ∧ memory.publishErrors = []

theorem answer_isCalm {memory : Memory} (hmemory : memory.IsCalm) (question : Question) :
    (memory.answer question).2.IsCalm := by
  obtain ⟨hfind, hpublish⟩ := hmemory
  cases question with
  | find query => simp [answer, find, IsCalm, hfind, hpublish]
  | publish proposal =>
      simp only [answer, publish, hpublish]
      split
      · exact ⟨hfind, hpublish⟩
      · exact ⟨hfind, hpublish⟩
  | issue title body =>
      simp only [answer, issue]
      split
      · exact ⟨hfind, hpublish⟩
      · exact ⟨hfind, hpublish⟩

/-- The service that is kept in memory, as a board. -/
def board : Board { memory : Memory // memory.IsCalm } where
  answer question memory :=
    ((memory.1.answer question).1,
      ⟨(memory.1.answer question).2, answer_isCalm memory.2 question⟩)
  proposals memory := memory.1.proposals
  taken memory branch := memory.1.taken.contains branch
  address branch := "https://example.com/pull/" ++ branch

theorem answer_find {memory : Memory} (hmemory : memory.IsCalm) (query : Query) :
    memory.answer (.find query) =
      (.ok (memory.proposals.filter fun existing => query.covers existing.branch), memory) := by
  simp only [answer, find, hmemory.1]

theorem answer_publish {memory : Memory} (hmemory : memory.IsCalm) (proposal : Proposal) :
    memory.answer (.publish proposal) =
      if memory.taken.contains proposal.branch then (.error (.conflict proposal.branch), memory)
      else (.ok (memory.opened proposal).1, (memory.opened proposal).2) := by
  simp only [answer, publish, hmemory.2]

theorem board_isExact : board.IsExact where
  find query memory := by
    have hanswer := answer_find memory.2 query
    constructor
    · simp only [board, hanswer]
    · constructor
      · simp only [board, hanswer]
      · simp only [board, hanswer]
  conflict proposal memory htaken := by
    have hanswer := answer_publish memory.2 proposal
    have htaken : memory.1.taken.contains proposal.branch = true := htaken
    rw [if_pos htaken] at hanswer
    constructor
    · simp only [board, hanswer]
    · constructor
      · simp only [board, hanswer]
      · simp only [board, hanswer]
  publish proposal memory hfree := by
    have hanswer := answer_publish memory.2 proposal
    have hfree : memory.1.taken.contains proposal.branch = false := hfree
    rw [if_neg (Bool.eq_false_iff.1 hfree)] at hanswer
    constructor
    · exact ⟨_, congrArg Prod.fst hanswer, rfl⟩
    · constructor
      · let new : Existing := ⟨memory.1.proposals.length + 1, proposal.branch,
          board.address proposal.branch, .opened⟩
        refine ⟨memory.1.proposals, new, [], (List.append_nil _).symm, ?_, rfl⟩
        simp only [board, hanswer, opened, new]
      · intro other
        simp only [board, hanswer, opened, List.contains_eq_any_beq, List.any_append,
          List.any_cons, List.any_nil, Bool.or_false]
        exact Bool.or_comm _ _

end Memory

end Hosting

end StubSync
