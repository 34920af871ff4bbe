/-
The same change proposed several times at once.

Several conversations with one service take their steps in any order.  Looking
and publishing are separate steps, so everyone who has looked before the first
publication goes on to publish: the first one on the branch, the second one on
its twin, and the others nowhere.  Everyone who looks later finds an open
proposal and leaves it at that.
-/
import Mathlib.Data.List.TakeWhile
import Mathlib.Logic.Relation
import StubSync.Proofs.Proposal.Blocking
import StubSync.Proofs.Proposal.Draft
import StubSync.Proofs.Proposal.Preview

namespace StubSync

open Interaction (OnlyAsks noting)

/-- Nothing is left to be asked. -/
def Interaction.isDone {Q : Type} {R : Q → Type} {α : Type} : Interaction Q R α → Bool
  | .done _ => true
  | .ask _ _ => false

namespace Submission

open Hosting (Board)

abbrev Conversation := Hosting.Exchange (Except SubmissionError Submission)

/-- Conversations that go on at the same time, and the state of the service. -/
structure Crew (σ : Type) where
  members : List Conversation
  state : σ

namespace Crew

variable {σ : Type}

/-- One member asks its next question. -/
inductive Step (answer : (question : Hosting.Question) → σ → Hosting.Reply question × σ) :
    Crew σ → Crew σ → Prop
  | ask {before after : List Conversation} {question : Hosting.Question}
      {next : Hosting.Reply question → Conversation} {state : σ} :
      Step answer ⟨before ++ .ask question next :: after, state⟩
        ⟨before ++ next (answer question state).1 :: after, (answer question state).2⟩

def Reaches (answer : (question : Hosting.Question) → σ → Hosting.Reply question × σ) :
    Crew σ → Crew σ → Prop :=
  Relation.ReflTransGen (Step answer)

/-- Every member has come to its end. -/
def IsOver (crew : Crew σ) : Prop :=
  ∀ member ∈ crew.members, member.isDone = true

instance (crew : Crew σ) : Decidable crew.IsOver :=
  inferInstanceAs (Decidable (∀ member ∈ crew.members, member.isDone = true))

/-- Whoever is there after a step took the step or was there before it. -/
theorem eq_or_mem_of_step {before after : List Conversation} {asking next member : Conversation}
    (hmem : member ∈ before ++ next :: after) :
    member = next ∨ member ∈ before ++ asking :: after := by
  rw [List.perm_middle.mem_iff, List.mem_cons] at hmem
  exact hmem.imp_right fun hother =>
    List.perm_middle.mem_iff.2 (List.mem_cons_of_mem _ hother)

variable (answer : (question : Hosting.Question) → σ → Hosting.Reply question × σ)

/-- One member alone comes to its end. -/
theorem exists_reaches_done (before after : List Conversation) (member : Conversation)
    (state : σ) : ∃ result later, Reaches answer ⟨before ++ member :: after, state⟩
      ⟨before ++ .done result :: after, later⟩ := by
  induction member generalizing state with
  | done result => exact ⟨result, state, .refl⟩
  | ask question next ih =>
      obtain ⟨result, later, hreaches⟩ := ih (answer question state).1 (answer question state).2
      exact ⟨result, later, .head .ask hreaches⟩

/-- Wherever the members are, they may all come to their ends. -/
theorem exists_reaches_over (crew : Crew σ) : ∃ last, Reaches answer crew last ∧ last.IsOver := by
  have hfrom : ∀ (waiting ended : List Conversation) (state : σ),
      (∀ member ∈ ended, member.isDone = true) →
      ∃ last, Reaches answer ⟨ended ++ waiting, state⟩ last ∧ last.IsOver := by
    intro waiting
    induction waiting with
    | nil =>
        intro ended state hended
        refine ⟨_, .refl, ?_⟩
        rw [List.append_nil]
        exact hended
    | cons member waiting ih =>
        intro ended state hended
        obtain ⟨result, later, hreaches⟩ :=
          exists_reaches_done answer ended waiting member state
        have hmore : ∀ member ∈ ended ++ [.done result], member.isDone = true := by
          rw [List.forall_mem_append, List.forall_mem_singleton]
          exact ⟨hended, rfl⟩
        obtain ⟨last, hlast, hover⟩ := ih (ended ++ [.done result]) later hmore
        rw [List.append_assoc] at hlast
        exact ⟨last, hreaches.trans hlast, hover⟩
  exact hfrom crew.members [] crew.state (List.forall_mem_nil _)

section Schedules

/-- The member at this place takes its turn, if there is one with a question. -/
def turn (crew : Crew σ) (place : Nat) : Crew σ :=
  match crew.members[place]? with
  | some (.ask question next) =>
      let replied := answer question crew.state
      ⟨crew.members.set place (next replied.1), replied.2⟩
  | _ => crew

/-- The members take turns in this order. -/
def follow (crew : Crew σ) (places : List Nat) : Crew σ :=
  places.foldl (turn answer) crew

theorem reaches_turn (crew : Crew σ) (place : Nat) :
    Reaches answer crew (crew.turn answer place) := by
  obtain ⟨members, state⟩ := crew
  unfold turn
  split
  · next question next hmember =>
      obtain ⟨hplace, hmember⟩ := List.getElem?_eq_some_iff.1 hmember
      have hmembers : members =
          members.take place ++ .ask question next :: members.drop (place + 1) := by
        rw [← hmember, List.getElem_cons_drop, List.take_append_drop]
      have hset : members.set place (next (answer question state).1) =
          members.take place ++ next (answer question state).1 :: members.drop (place + 1) := by
        rw [List.set_eq_take_append_cons_drop, if_pos hplace]
      have hstep : Step answer
          ⟨members.take place ++ .ask question next :: members.drop (place + 1), state⟩
          ⟨members.take place ++ next (answer question state).1 :: members.drop (place + 1),
            (answer question state).2⟩ := .ask
      rw [← hmembers, ← hset] at hstep
      exact .single hstep
  · exact .refl

theorem reaches_follow (crew : Crew σ) (places : List Nat) :
    Reaches answer crew (crew.follow answer places) := by
  induction places generalizing crew with
  | nil => exact .refl
  | cons place places ih => exact (reaches_turn answer crew place).trans (ih _)

end Schedules

end Crew

section Questions

/-- The question is a look at the proposals that there are. -/
def isLook : Hosting.Question → Bool
  | .find _ => true
  | _ => false

/-- The number of looks before the first publication. -/
def lookCount (asked : List Hosting.Question) : Nat :=
  (asked.takeWhile isLook).length

theorem all_isLook_append {asked : List Hosting.Question} (hpublished : asked.all isLook = false)
    (more : List Hosting.Question) : (asked ++ more).all isLook = false := by
  rw [List.all_append, hpublished, Bool.false_and]

theorem lookCount_append {asked : List Hosting.Question} (hpublished : asked.all isLook = false)
    (more : List Hosting.Question) : lookCount (asked ++ more) = lookCount asked := by
  have hlength : (asked.takeWhile isLook).length ≠ asked.length := by
    intro hlength
    have hwhole := (List.takeWhile_sublist isLook).eq_of_length hlength
    rw [List.takeWhile_eq_self_iff, ← List.all_eq_true, hpublished] at hwhole
    cases hwhole
  rw [lookCount, List.takeWhile_append, if_neg hlength, lookCount]

theorem lookCount_publish {asked : List Hosting.Question} (hlooks : asked.all isLook = true)
    (proposal : Proposal) : lookCount (asked ++ [.publish proposal]) = asked.length := by
  rw [List.all_eq_true] at hlooks
  rw [lookCount, List.takeWhile_append_of_pos hlooks]
  simp [isLook]

end Questions

section Members

variable {package : Package} {action : Action} {proposal : Proposal} {branch : String}

/-- What becomes of a proposal after the look. -/
def afterLook (package : Package) (action : Action) (branch : String) :
    Except HostingError (List Existing) → Conversation
  | .error error => .done (.error (.hosting error))
  | .ok existing => (drafted package action branch existing).submit

/-- What becomes of a proposal on the twin of a taken branch. -/
def afterRetry (twin : Proposal) : Except HostingError Published → Conversation
  | .ok result => .done (.ok (.published twin result.url))
  | .error error => .done (.error (.hosting error))

/-- What becomes of a proposal after its first publication. -/
def afterPublish (proposal : Proposal) : Except HostingError Published → Conversation
  | .ok result => .done (.ok (.published proposal result.url))
  | .error (.conflict taken) =>
      let twin := proposal.onBranch (Proposal.twinBranch taken)
      .ask (.publish twin) (afterRetry twin)
  | .error error => .done (.error (.hosting error))

theorem propose_eq_ask (hbranch : Proposal.branch? package.name action = some branch) :
    propose false package action =
      .ask (.find ⟨Proposal.branchLead package.name, branch⟩)
        (afterLook package action branch) := by
  rw [propose_live, draft, hbranch]
  refine congrArg (Interaction.ask _) (funext fun reply => ?_)
  cases reply <;> rfl

theorem publish_eq_ask (proposal : Proposal) :
    publish proposal = .ask (.publish proposal) (afterPublish proposal) := by
  refine congrArg (Interaction.ask _) (funext fun reply => ?_)
  cases reply with
  | ok result => rfl
  | error error =>
      cases error with
      | conflict taken =>
          refine congrArg (Interaction.ask _) (funext fun reply => ?_)
          cases reply <;> rfl
      | _ => rfl

/-- What is left of a member, where the service is seen so: a look, the first
publication, the publication on the twin, or nothing. -/
inductive IsMember (package : Package) (action : Action) (proposal : Proposal)
    (sight : Board.Sight) : Conversation → Prop
  | fresh : IsMember package action proposal sight
      (.ask (.find ⟨Proposal.branchLead package.name, proposal.branch⟩)
        (afterLook package action proposal.branch))
  | ready : IsMember package action proposal sight
      (.ask (.publish proposal) (afterPublish proposal))
  | moved (htaken : sight.taken proposal.branch = true) :
      IsMember package action proposal sight
        (.ask (.publish (proposal.onBranch (Proposal.twinBranch proposal.branch)))
          (afterRetry (proposal.onBranch (Proposal.twinBranch proposal.branch))))
  | ended (result : Except SubmissionError Submission) :
      IsMember package action proposal sight (.done result)

theorem IsMember.mono {before after : Board.Sight} {member : Conversation}
    (hmember : IsMember package action proposal before member)
    (htaken : before.taken proposal.branch = true → after.taken proposal.branch = true) :
    IsMember package action proposal after member := by
  cases hmember with
  | fresh => exact .fresh
  | ready => exact .ready
  | moved hbefore => exact .moved (htaken hbefore)
  | ended result => exact .ended result

/-- The member is about to publish. -/
def isPublishing : Conversation → Bool
  | .ask (.publish _) _ => true
  | _ => false

/-- How far the members have come: what the package sees of the service, what
was asked so far, and how many members are about to publish. -/
inductive Phase (branch : String) (sight : Board.Sight) (asked : List Hosting.Question)
    (publishing : Nat) : Prop
  | none (hmarks : sight.marks = []) (hfirst : sight.taken branch = false)
      (hsecond : sight.taken (Proposal.twinBranch branch) = false)
      (hlooks : asked.all isLook = true) (hcount : publishing = asked.length)
  | one (hmarks : sight.marks.Perm [(branch, .opened)]) (hfirst : sight.taken branch = true)
      (hsecond : sight.taken (Proposal.twinBranch branch) = false)
      (hpublished : asked.all isLook = false) (hcount : publishing + 1 = lookCount asked)
  | two (hmarks : sight.marks.Perm
        [(branch, .opened), (Proposal.twinBranch branch, .opened)])
      (hfirst : sight.taken branch = true)
      (hsecond : sight.taken (Proposal.twinBranch branch) = true)
      (hpublished : asked.all isLook = false) (hcount : 2 ≤ lookCount asked)

namespace Phase

variable {sight before after : Board.Sight} {asked : List Hosting.Question} {publishing : Nat}

/-- Where the branch is not taken, nothing has been published. -/
theorem of_free (hphase : Phase branch sight asked publishing)
    (hfree : sight.taken branch = false) :
    sight.marks = [] ∧ sight.taken (Proposal.twinBranch branch) = false ∧
      asked.all isLook = true ∧ publishing = asked.length := by
  cases hphase with
  | none hmarks _ hsecond hlooks hcount => exact ⟨hmarks, hsecond, hlooks, hcount⟩
  | one _ htaken =>
      rw [hfree] at htaken
      cases htaken
  | two _ htaken =>
      rw [hfree] at htaken
      cases htaken

/-- Where the branch is taken, an open proposal on it is seen. -/
theorem mem_marks (hphase : Phase branch sight asked publishing)
    (htaken : sight.taken branch = true) : (branch, ProposalState.opened) ∈ sight.marks := by
  cases hphase with
  | none hmarks hfirst =>
      rw [hfirst] at htaken
      cases htaken
  | one hmarks => exact hmarks.mem_iff.2 List.mem_cons_self
  | two hmarks => exact hmarks.mem_iff.2 List.mem_cons_self

/-- A look before the first publication leads to a publication. -/
theorem look (hphase : Phase branch sight asked publishing) (hfree : sight.taken branch = false)
    (query : Hosting.Query) : Phase branch sight (asked ++ [.find query]) (publishing + 1) := by
  obtain ⟨hmarks, hsecond, hlooks, hcount⟩ := hphase.of_free hfree
  refine .none hmarks hfree hsecond ?_ ?_
  · rw [List.all_append, hlooks]
    rfl
  · rw [hcount, List.length_append]
    rfl

/-- Once the branch is taken, a question that opens nothing leaves the members
where they are. -/
theorem append (hphase : Phase branch sight asked publishing) (htaken : sight.taken branch = true)
    (question : Hosting.Question) : Phase branch sight (asked ++ [question]) publishing := by
  cases hphase with
  | none hmarks hfirst hsecond hlooks hcount =>
      rw [hfirst] at htaken
      cases htaken
  | one hmarks hfirst hsecond hpublished hcount =>
      exact .one hmarks hfirst hsecond (all_isLook_append hpublished _)
        (hcount.trans (lookCount_append hpublished _).symm)
  | two hmarks hfirst hsecond hpublished hcount =>
      exact .two hmarks hfirst hsecond (all_isLook_append hpublished _)
        (hcount.trans_eq (lookCount_append hpublished _).symm)

/-- Once both branches are taken, it does not matter who else publishes. -/
theorem full (hphase : Phase branch sight asked publishing)
    (htaken : sight.taken (Proposal.twinBranch branch) = true) (question : Hosting.Question)
    (left : Nat) : Phase branch sight (asked ++ [question]) left := by
  cases hphase with
  | none _ _ hfree =>
      rw [hfree] at htaken
      cases htaken
  | one _ _ hfree =>
      rw [hfree] at htaken
      cases htaken
  | two hmarks hfirst hsecond hpublished hcount =>
      exact .two hmarks hfirst hsecond (all_isLook_append hpublished _)
        (hcount.trans_eq (lookCount_append hpublished _).symm)

/-- The first publication opens a proposal on the branch. -/
theorem first (hphase : Phase branch before asked (publishing + 1))
    (hfree : before.taken branch = false)
    (hmarks : after.marks.Perm ((branch, .opened) :: before.marks))
    (htaken : after.taken branch = true)
    (htwin : after.taken (Proposal.twinBranch branch) =
      before.taken (Proposal.twinBranch branch))
    (proposal : Proposal) : Phase branch after (asked ++ [.publish proposal]) publishing := by
  obtain ⟨hnone, hsecond, hlooks, hcount⟩ := hphase.of_free hfree
  rw [hnone] at hmarks
  refine .one hmarks htaken (htwin.trans hsecond) ?_ ?_
  · rw [List.all_append, hlooks]
    rfl
  · rw [lookCount_publish hlooks]
    exact hcount

/-- The publication on the twin comes from a second look before the first
publication. -/
theorem second (hphase : Phase branch before asked (publishing + 1))
    (hfirst : before.taken branch = true)
    (hfree : before.taken (Proposal.twinBranch branch) = false)
    (hmarks : after.marks.Perm ((Proposal.twinBranch branch, .opened) :: before.marks))
    (htaken : after.taken branch = true)
    (htwin : after.taken (Proposal.twinBranch branch) = true)
    (question : Hosting.Question) : Phase branch after (asked ++ [question]) publishing := by
  cases hphase with
  | none _ hnone =>
      rw [hfirst] at hnone
      cases hnone
  | one hone _ _ hpublished hcount =>
      refine .two (hmarks.trans ((hone.cons _).trans (.swap ..))) htaken htwin
        (all_isLook_append hpublished _) ?_
      rw [lookCount_append hpublished, ← hcount]
      omega
  | two _ _ htwo =>
      rw [hfree] at htwo
      cases htwo

end Phase

end Members

section Steps

variable {σ : Type} {board : Board σ} {package : Package} {action : Action} {proposal : Proposal}

/-- The members, the sight and the questions so far fit together. -/
structure Overlaps (board : Board σ) (package : Package) (action : Action) (proposal : Proposal)
    (crew : Crew (σ × List Hosting.Question)) : Prop where
  members : ∀ member ∈ crew.members,
    IsMember package action proposal (board.sight package.name crew.state.1) member
  phase : Phase proposal.branch (board.sight package.name crew.state.1) crew.state.2
    (crew.members.countP isPublishing)

/-- What is noted of a step: the question. -/
def askedOf (question : Hosting.Question) (_ : Hosting.Reply question) :
    Option Hosting.Question :=
  some question

/-- What the question of one member comes to, beside others of which so many
are about to publish. -/
structure Advances (board : Board σ) (package : Package) (action : Action) (proposal : Proposal)
    (others : Nat) (before after : σ × List Hosting.Question) (next : Conversation) : Prop where
  member : IsMember package action proposal (board.sight package.name after.1) next
  phase : Phase proposal.branch (board.sight package.name after.1) after.2
    (others + if isPublishing next then 1 else 0)
  taken : (board.sight package.name before.1).taken proposal.branch = true →
    (board.sight package.name after.1).taken proposal.branch = true

variable {others : Nat} {state : σ × List Hosting.Question}
  (hboard : board.IsExact) (hbuild : Proposal.build package action = .ok proposal)

include hboard hbuild

theorem advances_fresh {reply : Except HostingError (List Existing)} {later : σ}
    (hanswer : board.answer (.find ⟨Proposal.branchLead package.name, proposal.branch⟩) state.1 =
      (reply, later))
    (hphase : Phase proposal.branch (board.sight package.name state.1) state.2 others) :
    Advances board package action proposal others state
      (later, state.2 ++ [.find ⟨Proposal.branchLead package.name, proposal.branch⟩])
      (afterLook package action proposal.branch reply) := by
  have hlead : (⟨Proposal.branchLead package.name, proposal.branch⟩ : Hosting.Query).lead =
      Proposal.branchLead package.name := rfl
  obtain ⟨⟨found, hfound, hmarks⟩, hsight⟩ := hboard.find_sight hlead state.1
  rw [hanswer] at hfound hsight
  obtain rfl : reply = .ok found := hfound
  have htaken : (board.sight package.name state.1).taken proposal.branch = true →
      (board.sight package.name later).taken proposal.branch = true := fun htaken => by
    rw [hsight]
    exact htaken
  cases hfirst : (board.sight package.name state.1).taken proposal.branch with
  | false =>
      have hempty : found = [] := by
        rw [(hphase.of_free hfirst).1, List.map_eq_nil_iff] at hmarks
        exact hmarks
      have hready : drafted package action proposal.branch found = .ready proposal := by
        rw [hempty]
        simp only [drafted, hbuild]
        rfl
      rw [afterLook, hready, Draft.submit, publish_eq_ask]
      refine ⟨.ready, ?_, htaken⟩
      rw [hsight]
      exact hphase.look hfirst _
  | true =>
      have hopened : (proposal.branch, ProposalState.opened) ∈ found.map Existing.mark := by
        rw [hmarks]
        exact hphase.mem_marks hfirst
      have hsame : isSameChange proposal.branch proposal.branch = true := by
        simp [isSameChange]
      obtain ⟨existing, hblocking⟩ := blocking?_of_opened hsame hopened
      have hblocked : drafted package action proposal.branch found =
          .blocked .duplicate existing := by
        simp only [drafted, hblocking]
      rw [afterLook, hblocked]
      refine ⟨.ended _, ?_, htaken⟩
      rw [hsight]
      exact hphase.append hfirst _

omit hbuild

variable (hown : Proposal.isOf package.name proposal.branch = true)

include hown

theorem advances_ready {reply : Except HostingError Published} {later : σ}
    (hanswer : board.answer (.publish proposal) state.1 = (reply, later))
    (hphase : Phase proposal.branch (board.sight package.name state.1) state.2 (others + 1)) :
    Advances board package action proposal others state
      (later, state.2 ++ [.publish proposal])
      (afterPublish proposal reply) := by
  have htwin : Proposal.isOf package.name (Proposal.twinBranch proposal.branch) = true :=
    Proposal.twinBranch_isOf hown
  cases hfirst : (board.sight package.name state.1).taken proposal.branch with
  | false =>
      obtain ⟨⟨published, hreply, _⟩, hmarks, htaken⟩ := hboard.publish_free hown hfirst
      rw [hanswer] at hreply hmarks htaken
      obtain rfl : reply = .ok published := hreply
      have hnow : (board.sight package.name later).taken proposal.branch = true := by
        rw [htaken _ hown, beq_self_eq_true, Bool.true_or]
      have hsecond : (board.sight package.name later).taken
          (Proposal.twinBranch proposal.branch) =
            (board.sight package.name state.1).taken (Proposal.twinBranch proposal.branch) := by
        rw [htaken _ htwin, beq_eq_false_iff_ne.2 (Proposal.twinBranch_ne _), Bool.false_or]
      exact ⟨.ended _, hphase.first hfirst hmarks hnow hsecond proposal, fun _ => hnow⟩
  | true =>
      obtain ⟨hreply, hsight⟩ := hboard.publish_taken hown hfirst
      rw [hanswer] at hreply hsight
      obtain rfl : reply = .error (.conflict proposal.branch) := hreply
      have hnow : (board.sight package.name later).taken proposal.branch = true := by
        rw [hsight]
        exact hfirst
      refine ⟨.moved hnow, ?_, fun _ => hnow⟩
      rw [hsight]
      exact hphase.append hfirst _

theorem advances_moved {reply : Except HostingError Published} {later : σ}
    (hfirst : (board.sight package.name state.1).taken proposal.branch = true)
    (hanswer : board.answer
      (.publish (proposal.onBranch (Proposal.twinBranch proposal.branch))) state.1 =
        (reply, later))
    (hphase : Phase proposal.branch (board.sight package.name state.1) state.2 (others + 1)) :
    Advances board package action proposal others state
      (later, state.2 ++
        [.publish (proposal.onBranch (Proposal.twinBranch proposal.branch))])
      (afterRetry (proposal.onBranch (Proposal.twinBranch proposal.branch)) reply) := by
  have htwin : Proposal.isOf package.name
      (proposal.onBranch (Proposal.twinBranch proposal.branch)).branch = true :=
    Proposal.twinBranch_isOf hown
  cases hsecond : (board.sight package.name state.1).taken
      (Proposal.twinBranch proposal.branch) with
  | false =>
      obtain ⟨⟨published, hreply, _⟩, hmarks, htaken⟩ := hboard.publish_free htwin hsecond
      rw [hanswer] at hreply hmarks htaken
      obtain rfl : reply = .ok published := hreply
      have hnow : (board.sight package.name later).taken proposal.branch = true := by
        rw [htaken _ hown, hfirst, Bool.or_true]
      have htwo : (board.sight package.name later).taken
          (Proposal.twinBranch proposal.branch) = true :=
        (htaken _ htwin).trans (Bool.or_eq_true_iff.2 (Or.inl (beq_self_eq_true _)))
      exact ⟨.ended _, hphase.second hfirst hsecond hmarks hnow htwo _, fun _ => hnow⟩
  | true =>
      obtain ⟨hreply, hsight⟩ := hboard.publish_taken htwin hsecond
      rw [hanswer] at hreply hsight
      obtain rfl : reply = .error (.conflict _) := hreply
      refine ⟨.ended _, ?_, ?_⟩
      · rw [hsight]
        exact hphase.full hsecond _ _
      · rw [hsight]
        exact id

include hbuild

/-- One question of a member, whichever it is. -/
theorem IsMember.advances {question : Hosting.Question}
    {next : Hosting.Reply question → Conversation}
    (hmember : IsMember package action proposal (board.sight package.name state.1)
      (.ask question next))
    (hphase : Phase proposal.branch (board.sight package.name state.1) state.2
      (others + if isPublishing (.ask question next) then 1 else 0)) :
    Advances board package action proposal others state
      ((board.answer question state.1).2, state.2 ++ [question])
      (next (board.answer question state.1).1) := by
  cases hmember with
  | fresh => exact advances_fresh hboard hbuild rfl hphase
  | ready => exact advances_ready hboard hown rfl hphase
  | moved hfirst => exact advances_moved hboard hown hfirst rfl hphase

/-- The step lemma: whoever asks next, the members, the sight and the questions
so far fit together again. -/
theorem Overlaps.step {crew later : Crew (σ × List Hosting.Question)}
    (hoverlaps : Overlaps board package action proposal crew)
    (hstep : Crew.Step (noting askedOf board.answer) crew later) :
    Overlaps board package action proposal later := by
  cases hstep with
  | @ask before after question next state =>
      have hphase := hoverlaps.phase
      rw [List.countP_append, List.countP_cons, ← Nat.add_assoc, ← List.countP_append] at hphase
      have hadvances := (hoverlaps.members _ List.mem_append_cons_self).advances hboard hbuild
        hown hphase
      constructor
      · intro member hmem
        rcases Crew.eq_or_mem_of_step hmem with rfl | hother
        · exact hadvances.member
        · exact (hoverlaps.members member hother).mono hadvances.taken
      · have hphase := hadvances.phase
        rw [List.countP_append, Nat.add_assoc, ← List.countP_cons, ← List.countP_append] at hphase
        exact hphase

/-- The run lemma. -/
theorem Overlaps.reaches {crew later : Crew (σ × List Hosting.Question)}
    (hoverlaps : Overlaps board package action proposal crew)
    (hreaches : Crew.Reaches (noting askedOf board.answer) crew later) :
    Overlaps board package action proposal later := by
  induction hreaches with
  | refl => exact hoverlaps
  | tail _ hstep ih => exact ih.step hboard hbuild hown hstep

end Steps

section Outcome

variable {σ : Type} {board : Board σ} {package : Package} {action : Action}

/-- Members that all propose the same change, and have not begun. -/
def Crew.start (count : Nat) (package : Package) (action : Action) (state : σ) :
    Crew (σ × List Hosting.Question) where
  members := List.replicate count (propose false package action)
  state := (state, [])

/-- No proposal of the package is seen, and none of its branches is taken. -/
def blank : Board.Sight where
  marks := []
  taken _ := false

/-- What the members leave behind, by the number of looks before the first
publication. -/
structure Settles (package : Package) (action : Action) (sight : Board.Sight) (looks : Nat) :
    Prop where
  opened : ∀ proposal, Proposal.build package action = .ok proposal →
    sight.marks.Perm ([(proposal.branch, .opened),
      (Proposal.twinBranch proposal.branch, .opened)].take looks)
  refused : ∀ error, Proposal.build package action = .error error → sight.marks = []
  atMostTwo : sight.marks.length ≤ 2
  /-- Two proposals come from two looks before the first publication. -/
  single : looks ≤ 1 → sight.marks.length ≤ 1

theorem Settles.of_build {proposal : Proposal} {sight : Board.Sight} {looks : Nat}
    (hbuild : Proposal.build package action = .ok proposal)
    (hmarks : sight.marks.Perm ([(proposal.branch, .opened),
      (Proposal.twinBranch proposal.branch, .opened)].take looks)) :
    Settles package action sight looks := by
  have hlength := hmarks.length_eq
  rw [List.length_take] at hlength
  constructor
  · intro built hbuilt
    cases hbuild.symm.trans hbuilt
    exact hmarks
  · intro error herror
    cases hbuild.symm.trans herror
  · rw [hlength]
    exact Nat.min_le_right _ _
  · intro hlooks
    rw [hlength]
    exact (Nat.min_le_left _ _).trans hlooks

theorem Settles.of_error {error : MetadataError} {sight : Board.Sight} (looks : Nat)
    (hbuild : Proposal.build package action = .error error) (hmarks : sight.marks = []) :
    Settles package action sight looks := by
  constructor
  · intro proposal hproposal
    cases hbuild.symm.trans hproposal
  · exact fun _ _ => hmarks
  · simp [hmarks]
  · simp [hmarks]

theorem start_overlaps {proposal : Proposal} {state : σ} (count : Nat)
    (hbuild : Proposal.build package action = .ok proposal)
    (hblank : board.sight package.name state = blank) :
    Overlaps board package action proposal (Crew.start count package action state) := by
  have hfresh := propose_eq_ask (Proposal.branch?_of_build hbuild)
  constructor
  · intro member hmem
    rw [List.eq_of_mem_replicate hmem, hfresh]
    exact .fresh
  · have hcount : (List.replicate count (propose false package action)).countP isPublishing =
        0 := by
      rw [List.countP_eq_zero]
      intro member hmem
      rw [List.eq_of_mem_replicate hmem, hfresh]
      exact Bool.false_ne_true
    simp only [Crew.start, hblank, hcount]
    exact .none rfl rfl rfl rfl rfl

/-- Where all members have come to their ends, nobody is about to publish. -/
theorem Overlaps.settles {proposal : Proposal} {crew : Crew (σ × List Hosting.Question)}
    (hbuild : Proposal.build package action = .ok proposal)
    (hoverlaps : Overlaps board package action proposal crew) (hover : crew.IsOver) :
    Settles package action (board.sight package.name crew.state.1)
      (lookCount crew.state.2) := by
  have hcount : crew.members.countP isPublishing = 0 := by
    rw [List.countP_eq_zero]
    intro member hmem
    have hdone := hover member hmem
    cases member with
    | done result => exact Bool.false_ne_true
    | ask question next => cases hdone
  have hphase := hoverlaps.phase
  rw [hcount] at hphase
  refine .of_build hbuild ?_
  cases hphase with
  | none hmarks _ _ _ hcount =>
      rw [hmarks, List.eq_nil_of_length_eq_zero hcount.symm]
      exact .nil
  | one hmarks _ _ _ hcount =>
      rw [← hcount]
      exact hmarks
  | two hmarks _ _ _ hcount =>
      rw [List.take_of_length_le hcount]
      exact hmarks

/-- A change that cannot be made up is looked for, and never published. -/
theorem propose_looks {error : MetadataError}
    (hbuild : Proposal.build package action = .error error) :
    (propose false package action).OnlyAsks (LooksFor package) := by
  have hpaces : (propose false package action).Paces Hosting.attempt?
      (fun _ => LooksFor package) (fun _ _ => True) [] := by
    rw [propose_live]
    refine (draft_paces []).bind fun draft attempts hdraft => ?_
    cases draft with
    | failed error => trivial
    | blocked reason existing => trivial
    | ready proposal => cases hbuild.symm.trans hdraft.1
  exact hpaces.onlyAsks fun _ _ hlooks => hlooks

/-- What no question of a kind changes is not changed by members that ask no
others. -/
theorem Crew.reaches_view {ν τ : Type} {may : Hosting.Question → Prop} (view : τ → ν)
    {answer : (question : Hosting.Question) → τ → Hosting.Reply question × τ}
    (hview : ∀ question state, may question → view (answer question state).2 = view state)
    {crew later : Crew τ} (hmembers : ∀ member ∈ crew.members, member.OnlyAsks may)
    (hreaches : Crew.Reaches answer crew later) :
    (∀ member ∈ later.members, member.OnlyAsks may) ∧ view later.state = view crew.state := by
  induction hreaches with
  | refl => exact ⟨hmembers, rfl⟩
  | tail _ hstep ih =>
      obtain ⟨hmembers, hsame⟩ := ih
      cases hstep with
      | ask =>
          have hasks := hmembers _ List.mem_append_cons_self
          refine ⟨fun member hmem => ?_, (hview _ _ hasks.1).trans hsame⟩
          rcases eq_or_mem_of_step hmem with rfl | hother
          · exact hasks.2 _
          · exact hmembers member hother

/-- Members that propose the same change at the same time come to their ends, and
then they have opened at most two proposals, and no more than there were looks
before the first publication. -/
theorem overlapping_settles {state : σ} {count : Nat} {crew : Crew (σ × List Hosting.Question)}
    (hboard : board.IsExact) (hblank : board.sight package.name state = blank)
    (hreaches : Crew.Reaches (noting askedOf board.answer)
      (Crew.start count package action state) crew) :
    (∃ last, Crew.Reaches (noting askedOf board.answer) crew last ∧ last.IsOver) ∧
      (crew.IsOver → Settles package action (board.sight package.name crew.state.1)
        (lookCount crew.state.2)) := by
  refine ⟨Crew.exists_reaches_over _ crew, fun hover => ?_⟩
  cases hbuild : Proposal.build package action with
  | ok proposal =>
      have hown := Proposal.branch?_isOf (Proposal.branch?_of_build hbuild)
      have hoverlaps := (start_overlaps count hbuild hblank).reaches hboard hbuild hown hreaches
      exact hoverlaps.settles hbuild hover
  | error error =>
      let view := fun state : σ × List Hosting.Question => board.sight package.name state.1
      have hview : ∀ question state, LooksFor package question →
          view (noting askedOf board.answer question state).2 = view state := by
        intro question state hlooks
        cases question with
        | find query => exact (hboard.find_sight hlooks state.1).2
        | publish proposal => exact hlooks.elim
        | issue title body => exact hlooks.elim
      have hmembers : ∀ member ∈ (Crew.start count package action state).members,
          member.OnlyAsks (LooksFor package) := by
        intro member hmem
        rw [List.eq_of_mem_replicate hmem]
        exact propose_looks hbuild
      have hsame := (Crew.reaches_view view hview hmembers hreaches).2
      exact .of_error _ hbuild (congrArg Board.Sight.marks (hsame.trans hblank))

end Outcome

namespace OverlapExample

open Hosting (Memory)
open PreviewExample (stubs bump)

/-- An empty service. -/
def empty : { memory : Memory // memory.IsCalm } :=
  ⟨{}, rfl, rfl⟩

/-- Two members that take turns in this order. -/
def crewOf (places : List Nat) : Crew ({ memory : Memory // memory.IsCalm } ×
    List Hosting.Question) :=
  (Crew.start 2 stubs bump empty).follow (noting askedOf Memory.board.answer) places

theorem reaches_crewOf (places : List Nat) :
    Crew.Reaches (noting askedOf Memory.board.answer) (Crew.start 2 stubs bump empty)
      (crewOf places) :=
  Crew.reaches_follow _ _ places

/-- The second member looks when the first one has published. -/
theorem orderly_settles :
    Memory.board.IsExact ∧ Memory.board.sight stubs.name empty = blank ∧
      (crewOf [0, 0, 1]).IsOver ∧
      Settles stubs bump (Memory.board.sight stubs.name (crewOf [0, 0, 1]).state.1)
        (lookCount (crewOf [0, 0, 1]).state.2) ∧
      lookCount (crewOf [0, 0, 1]).state.2 = 1 := by
  have hblank : Memory.board.sight stubs.name empty = blank := rfl
  have hreaches := reaches_crewOf [0, 0, 1]
  have hover : (crewOf [0, 0, 1]).IsOver := by decide +kernel
  have hsettles := (overlapping_settles Memory.board_isExact hblank hreaches).2 hover
  exact ⟨Memory.board_isExact, hblank, hover, hsettles, by decide +kernel⟩

/-- Both members look before either of them publishes. -/
theorem two_opened :
    Memory.board.IsExact ∧ Memory.board.sight stubs.name empty = blank ∧
      ¬ ∀ crew, Crew.Reaches (noting askedOf Memory.board.answer)
        (Crew.start 2 stubs bump empty) crew → crew.IsOver →
        ((Memory.board.sight stubs.name crew.state.1).marks.countP
          fun mark => mark.2 == .opened) ≤ 1 := by
  refine ⟨Memory.board_isExact, rfl, fun hsingle => ?_⟩
  have hcount := hsingle (crewOf [0, 1, 0, 1, 1]) (reaches_crewOf _) (by decide +kernel)
  revert hcount
  decide +kernel

end OverlapExample

end Submission

end StubSync
