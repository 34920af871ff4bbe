/-
What the task of a package comes down to.

A task asks questions of its own package only.  Their answers are known from
what the package can see of the board, so the task has one end: one entry, and
the same marks on its own branches up to their order.  Either it changes
nothing that the package can see, or it opens one proposal, and then it would
change nothing any more.
-/
import StubSync.Proofs.Hosting.Board
import StubSync.Proofs.Proposal.Blocking
import StubSync.Proofs.Run.Attempts
import StubSync.Proofs.Trace
import StubSync.Run

namespace StubSync

/-- What is said about a package again for which this was said before. -/
def Entry.again (entry : Entry) : Entry :=
  match entry.outcome with
  | .proposed action _ _ =>
      { entry with outcome := .skipped (some action) .duplicate, diff := none }
  | _ => entry

theorem Entry.again_of_not_proposed {entry : Entry}
    (hentry : entry.outcome.isProposed = false) : entry.again = entry := by
  unfold again
  split
  · rename_i houtcome
    rw [houtcome] at hentry
    cases hentry
  · rfl

namespace Run

open Hosting (Board)
open Interaction (Asked)

section Settled

/-- The question is of the stub package. -/
def Owns (stub : String) : Question → Prop
  | .fetch _ => True
  | .host (.find query) => query.lead = Proposal.branchLead stub
  | .host (.publish proposal) => Proposal.isOf stub proposal.branch = true
  | .host (.issue _ _) => False

/-- What is fetched for a distribution. -/
abbrev Releases := String → Except IndexError (List Release)

/-- What may be answered to the questions of a stub package that sees `before`,
and what it may see afterwards. -/
def Grants (fetched : Releases) (address : String → String) (stub : String) :
    (question : Question) → Board.Sight → Reply question → Board.Sight → Prop
  | .fetch distribution, before, reply, after => reply = fetched distribution ∧ after = before
  | .host (.find query), before, reply, after =>
      query.lead = Proposal.branchLead stub → after = before ∧
        ∃ found, reply = .ok found ∧ found.map Existing.mark = before.marks
  | .host (.publish proposal), before, reply, after =>
      Proposal.isOf stub proposal.branch = true →
        (before.taken proposal.branch = true → after = before ∧
          reply = .error (.conflict proposal.branch)) ∧
        (before.taken proposal.branch = false →
          after.marks.Perm ((proposal.branch, .opened) :: before.marks) ∧
          ∃ published, reply = .ok published ∧ published.url = address proposal.branch)
  | .host (.issue _ _), _, _, _ => True

variable {fetched : Releases} {address : String → String} {stub : String}
  {sight : Board.Sight}

/-- However the questions are answered, the task asks its own questions only,
and it ends with the entry and the marks. -/
def Settles (fetched : Releases) (address : String → String) (stub : String)
    (task : Exchange Entry) (sight : Board.Sight) (entry : Entry)
    (marks : List (String × ProposalState)) : Prop :=
  task.AlwaysTraced (Grants fetched address stub)
    (fun result after asked => result = entry ∧ after.marks.Perm marks ∧
      ∀ question ∈ asked.map Asked.question, Owns stub question) sight

theorem settles_pure (entry : Entry) :
    Settles fetched address stub (pure entry) sight entry sight.marks :=
  ⟨rfl, .refl _, by simp⟩

/-- However the questions are answered, the task asks questions of a kind, and
`post` holds of its entry and of what is seen at its end. -/
def Ends (fetched : Releases) (address : String → String) (stub : String)
    (asks : Question → Prop) (post : Entry → Board.Sight → Prop) (task : Exchange Entry)
    (sight : Board.Sight) : Prop :=
  task.AlwaysTraced (Grants fetched address stub)
    (fun result later asked => post result later ∧
      ∀ question ∈ asked.map Asked.question, asks question) sight

section Kinds

variable {asks wider : Question → Prop} {post weaker : Entry → Board.Sight → Prop}
  {task : Exchange Entry}

theorem Ends.mono (hends : Ends fetched address stub asks post task sight)
    (hasks : ∀ question, asks question → wider question)
    (hpost : ∀ entry later, post entry later → weaker entry later) :
    Ends fetched address stub wider weaker task sight := by
  refine Interaction.AlwaysTraced.mono hends ?_
  rintro result last asked ⟨hresult, hasked⟩
  exact ⟨hpost result last hresult,
    fun question hquestion => hasks question (hasked question hquestion)⟩

/-- A question of the kind may come first if the task ends so after any answer
to it. -/
theorem Ends.query_bind {question : Question} {next : Reply question → Exchange Entry}
    (hasks : asks question)
    (hnext : ∀ reply later, Grants fetched address stub question sight reply later →
      Ends fetched address stub asks post (next reply) later) :
    Ends fetched address stub asks post (Interaction.query question >>= next) sight := by
  intro reply later hreply
  refine Interaction.AlwaysTraced.mono (hnext reply later hreply) ?_
  rintro result last asked ⟨hresult, hasked⟩
  exact ⟨hresult, List.forall_mem_cons.2 ⟨hasks, hasked⟩⟩

end Kinds

theorem settles_iff_ends {task : Exchange Entry} {entry : Entry}
    {marks : List (String × ProposalState)} :
    Settles fetched address stub task sight entry marks ↔
      Ends fetched address stub (Owns stub)
        (fun result later => result = entry ∧ later.marks.Perm marks) task sight := by
  constructor
  · intro hsettles
    refine Interaction.AlwaysTraced.mono hsettles ?_
    rintro result later asked ⟨hresult, hmarks, hasked⟩
    exact ⟨⟨hresult, hmarks⟩, hasked⟩
  · intro hends
    refine Interaction.AlwaysTraced.mono hends ?_
    rintro result later asked ⟨⟨hresult, hmarks⟩, hasked⟩
    exact ⟨hresult, hmarks, hasked⟩

theorem Settles.query_bind {question : Question} {next : Reply question → Exchange Entry}
    {entry : Entry} {marks : List (String × ProposalState)} (howns : Owns stub question)
    (hnext : ∀ reply later, Grants fetched address stub question sight reply later →
      Settles fetched address stub (next reply) later entry marks) :
    Settles fetched address stub (Interaction.query question >>= next) sight entry marks :=
  settles_iff_ends.2 (Ends.query_bind howns fun reply later hreply =>
    settles_iff_ends.1 (hnext reply later hreply))

/-- What is made of a conversation with the hosting service. -/
def heard {α : Type} (exchange : Hosting.Exchange α) (conclude : α → Entry) : Exchange Entry := do
  return conclude (← host exchange)

theorem settles_heard_pure {α : Type} (result : α) (conclude : α → Entry) :
    Settles fetched address stub (heard (pure result) conclude) sight (conclude result)
      sight.marks :=
  settles_pure (conclude result)

theorem settles_heard_query {α : Type} {question : Hosting.Question}
    {next : Hosting.Reply question → Hosting.Exchange α} {conclude : α → Entry} {entry : Entry}
    {marks : List (String × ProposalState)} (howns : Owns stub (.host question))
    (hnext : ∀ reply later, Grants fetched address stub (.host question) sight reply later →
      Settles fetched address stub (heard (next reply) conclude) later entry marks) :
    Settles fetched address stub (heard (Interaction.query question >>= next) conclude) sight
      entry marks :=
  Settles.query_bind howns hnext

/-- Marks that are the same up to their order are as good. -/
theorem Settles.perm {task : Exchange Entry} {entry : Entry}
    {marks others : List (String × ProposalState)}
    (hsettles : Settles fetched address stub task sight entry marks)
    (hperm : marks.Perm others) : Settles fetched address stub task sight entry others := by
  refine Interaction.AlwaysTraced.mono hsettles ?_
  rintro result last asked ⟨hresult, hmarks, hasked⟩
  exact ⟨hresult, hmarks.trans hperm, hasked⟩

/-- The question changes nothing of what is seen. -/
def IsQuiet (sight : Board.Sight) : Question → Prop
  | .host (.publish proposal) => sight.taken proposal.branch = true
  | _ => True

theorem Grants.eq_of_isQuiet {question : Question} {reply : Reply question}
    {later : Board.Sight} (hreply : Grants fetched address stub question sight reply later)
    (howns : Owns stub question) (hquiet : IsQuiet sight question) : later = sight := by
  match question with
  | .fetch distribution => exact hreply.2
  | .host (.find query) => exact (hreply howns).1
  | .host (.publish proposal) => exact ((hreply howns).1 hquiet).1
  | .host (.issue title body) => exact howns.elim

/-- The task has this entry, and all its questions are quiet. -/
def Stays (fetched : Releases) (address : String → String) (stub : String)
    (task : Exchange Entry) (sight : Board.Sight) (entry : Entry) : Prop :=
  Ends fetched address stub (fun question => Owns stub question ∧ IsQuiet sight question)
    (fun result later => result = entry ∧ later = sight) task sight

theorem Stays.settles {task : Exchange Entry} {entry : Entry}
    (hstays : Stays fetched address stub task sight entry) :
    Settles fetched address stub task sight entry sight.marks := by
  refine settles_iff_ends.2 (hstays.mono (fun _ hquiet => hquiet.1) ?_)
  rintro result later ⟨hresult, rfl⟩
  exact ⟨hresult, .refl _⟩

theorem stays_pure (entry : Entry) :
    Stays fetched address stub (pure entry) sight entry :=
  ⟨⟨rfl, rfl⟩, by simp⟩

theorem Stays.query_bind {question : Question} {next : Reply question → Exchange Entry}
    {entry : Entry} (howns : Owns stub question) (hquiet : IsQuiet sight question)
    (hnext : ∀ reply, Grants fetched address stub question sight reply sight →
      Stays fetched address stub (next reply) sight entry) :
    Stays fetched address stub (Interaction.query question >>= next) sight entry := by
  refine Ends.query_bind ⟨howns, hquiet⟩ fun reply later hreply => ?_
  obtain rfl := hreply.eq_of_isQuiet howns hquiet
  exact hnext reply hreply

theorem stays_heard_pure {α : Type} (result : α) (conclude : α → Entry) :
    Stays fetched address stub (heard (pure result) conclude) sight (conclude result) :=
  stays_pure (conclude result)

theorem stays_heard_query {α : Type} {question : Hosting.Question}
    {next : Hosting.Reply question → Hosting.Exchange α} {conclude : α → Entry} {entry : Entry}
    (howns : Owns stub (.host question)) (hquiet : IsQuiet sight (.host question))
    (hnext : ∀ reply, Grants fetched address stub (.host question) sight reply sight →
      Stays fetched address stub (heard (next reply) conclude) sight entry) :
    Stays fetched address stub (heard (Interaction.query question >>= next) conclude) sight
      entry :=
  Stays.query_bind howns hquiet hnext

/-- Publishing on a free branch opens a proposal there, on a taken one it opens
one on the twin, unless that is taken as well. -/
theorem publish_ends (conclude : Except SubmissionError Submission → Entry)
    (proposal : Proposal) (hown : Proposal.isOf stub proposal.branch = true) :
    (∃ error, Stays fetched address stub (heard (Submission.publish proposal) conclude) sight
      (conclude (.error error))) ∨
    ∃ opened : Proposal, Submission.isSameChange proposal.branch opened.branch = true ∧
      Settles fetched address stub (heard (Submission.publish proposal) conclude) sight
        (conclude (.ok (.published opened (address opened.branch))))
        ((opened.branch, .opened) :: sight.marks) := by
  let twin := proposal.onBranch (Proposal.twinBranch proposal.branch)
  have htwin : Proposal.isOf stub twin.branch = true := Proposal.twinBranch_isOf hown
  cases hfirst : sight.taken proposal.branch with
  | false =>
      refine Or.inr ⟨proposal, by simp [Submission.isSameChange], settles_heard_query hown ?_⟩
      intro reply later hreply
      obtain ⟨hmarks, published, rfl, hurl⟩ := (hreply hown).2 hfirst
      rw [← hurl]
      exact (settles_heard_pure _ conclude).perm hmarks
  | true =>
      cases hsecond : sight.taken twin.branch with
      | false =>
          have hsame : Submission.isSameChange proposal.branch twin.branch = true := by
            simp [Submission.isSameChange, twin, Proposal.onBranch]
          refine Or.inr ⟨twin, hsame, settles_heard_query hown ?_⟩
          intro reply later hreply
          obtain ⟨rfl, rfl⟩ := (hreply hown).1 hfirst
          refine settles_heard_query htwin ?_
          intro reply last hreply
          obtain ⟨hmarks, published, rfl, hurl⟩ := (hreply htwin).2 hsecond
          rw [← hurl]
          exact (settles_heard_pure _ conclude).perm hmarks
      | true =>
          refine Or.inl ⟨.hosting (.conflict twin.branch), stays_heard_query hown hfirst ?_⟩
          intro reply hreply
          obtain ⟨_, rfl⟩ := (hreply hown).1 hfirst
          refine stays_heard_query htwin hsecond ?_
          intro reply hreply
          obtain ⟨_, rfl⟩ := (hreply htwin).1 hsecond
          exact stays_heard_pure _ conclude

/-- Looking for proposals is quiet, and a listing is not known but for its
marks. -/
theorem stays_find {α : Type} {query : Hosting.Query}
    {next : Except HostingError (List Existing) → Hosting.Exchange α} {conclude : α → Entry}
    {entry : Entry} (hlead : query.lead = Proposal.branchLead stub)
    (hnext : ∀ found, found.map Existing.mark = sight.marks →
      Stays fetched address stub (heard (next (.ok found)) conclude) sight entry) :
    Stays fetched address stub (heard (Hosting.find query >>= next) conclude) sight entry := by
  refine stays_heard_query hlead trivial ?_
  intro reply hreply
  obtain ⟨_, found, hfound, hmarks⟩ := hreply hlead
  rw [hfound]
  exact hnext found hmarks

theorem settles_find {α : Type} {query : Hosting.Query}
    {next : Except HostingError (List Existing) → Hosting.Exchange α} {conclude : α → Entry}
    {entry : Entry} {marks : List (String × ProposalState)}
    (hlead : query.lead = Proposal.branchLead stub)
    (hnext : ∀ found, found.map Existing.mark = sight.marks →
      Settles fetched address stub (heard (next (.ok found)) conclude) sight entry marks) :
    Settles fetched address stub (heard (Hosting.find query >>= next) conclude) sight entry
      marks := by
  refine settles_heard_query hlead ?_
  intro reply later hreply
  obtain ⟨hlater, found, hfound, hmarks⟩ := hreply hlead
  rw [hlater, hfound]
  exact hnext found hmarks

/-- The task changes nothing, or it opens one proposal and would change nothing
after that. -/
def StaysOrOpens (fetched : Releases) (address : String → String) (stub : String)
    (dryRun : Bool) (task : Exchange Entry) (sight : Board.Sight) : Prop :=
  (∃ entry, Stays fetched address stub task sight entry ∧
    (dryRun = false → entry.outcome.isProposed = false)) ∨
  ∃ entry branch,
    Settles fetched address stub task sight entry ((branch, .opened) :: sight.marks) ∧
    ∀ later : Board.Sight, (branch, .opened) ∈ later.marks →
      Stays fetched address stub task later entry.again

theorem staysOrOpens_pure {dryRun : Bool} {entry : Entry}
    (hentry : entry.outcome.isProposed = false) :
    StaysOrOpens fetched address stub dryRun (pure entry) sight :=
  Or.inl ⟨entry, stays_pure entry, fun _ => hentry⟩

theorem again_published {skipped : Entry} (hskipped : skipped.diff = none) {action : Action}
    {proposal : Proposal} {url : String} (existing : Existing) :
    (concluded skipped action (.ok (.published proposal url))).again =
      concluded skipped action (.ok (.skipped .duplicate existing)) := by
  simp only [concluded, Entry.again, hskipped]

/-- Where the marks of a listing decide how to go on, they decide what comes of
looking for proposals. -/
theorem staysOrOpens_find {α : Type} {query : Hosting.Query}
    {next : Except HostingError (List Existing) → Hosting.Exchange α} {conclude : α → Entry}
    {dryRun : Bool} (hlead : query.lead = Proposal.branchLead stub) {rest : Hosting.Exchange α}
    (hnext : ∀ found, found.map Existing.mark = sight.marks → next (.ok found) = rest)
    {result : α} (hstays : Stays fetched address stub (heard rest conclude) sight (conclude result))
    (hproposed : dryRun = false → (conclude result).outcome.isProposed = false) :
    StaysOrOpens fetched address stub dryRun (heard (Hosting.find query >>= next) conclude)
      sight := by
  refine Or.inl ⟨conclude result, stays_find hlead fun found hfound => ?_, hproposed⟩
  rw [hnext found hfound]
  exact hstays

/-- What is decided on a listing is decided by its marks. -/
theorem propose_ends (dryRun : Bool) (package : Package) (action : Action) {skipped : Entry}
    (hskipped : skipped.diff = none) (sight : Board.Sight) :
    StaysOrOpens fetched address package.name dryRun
      (heard (Submission.propose dryRun package action) (concluded skipped action)) sight := by
  unfold Submission.propose
  cases hbranch : Proposal.branch? package.name action with
  | none => exact staysOrOpens_pure rfl
  | some branch =>
      have hreason : ∀ found : List Existing, found.map Existing.mark = sight.marks →
          (Submission.blocking? branch found).map Prod.fst =
            (Submission.blocking? branch (sight.marks.map Submission.ofMark)).map Prod.fst := by
        intro found hfound
        rw [← hfound, Submission.blocking?_ofMark]
      cases hstands : (Submission.blocking? branch (sight.marks.map Submission.ofMark)).map
          Prod.fst with
      | some reason =>
          refine Or.inl ⟨{ skipped with outcome := .skipped (some action) reason },
            stays_find rfl ?_, fun _ => rfl⟩
          intro found hfound
          obtain ⟨⟨_, existing⟩, hblocking, rfl⟩ :=
            Option.map_eq_some_iff.1 ((hreason found hfound).trans hstands)
          dsimp only
          rw [hblocking]
          exact stays_heard_pure _ _
      | none =>
          have hfree : ∀ found : List Existing, found.map Existing.mark = sight.marks →
              Submission.blocking? branch found = none :=
            fun found hfound => Option.map_eq_none_iff.1 ((hreason found hfound).trans hstands)
          cases hbuild : Proposal.build package action with
          | error error =>
              refine staysOrOpens_find rfl (fun found hfound => ?_)
                (stays_heard_pure (.error (.metadata error)) _) fun _ => rfl
              simp only [hfree found hfound]
          | ok proposal =>
              have hproposal := Proposal.branch?_of_build hbuild
              cases dryRun with
              | true =>
                  refine staysOrOpens_find rfl (fun found hfound => ?_)
                    (stays_heard_pure (.ok (.dryRun proposal)) _) nofun
                  simp only [hfree found hfound, ↓reduceIte]
              | false =>
                  rcases publish_ends (concluded skipped action) proposal
                    (Proposal.branch?_isOf hproposal) with ⟨error, hstays⟩ | ⟨opened, hsame, hopens⟩
                  · refine staysOrOpens_find rfl (fun found hfound => ?_) hstays fun _ => rfl
                    simp only [hfree found hfound, Bool.false_eq_true, ↓reduceIte]
                  · refine Or.inr
                      ⟨concluded skipped action (.ok (.published opened (address opened.branch))),
                        opened.branch, settles_find rfl fun found hfound => ?_, ?_⟩
                    · dsimp only
                      rw [hfree found hfound]
                      exact hopens
                    · intro later hopened
                      refine stays_find rfl fun found hfound => ?_
                      rw [← Option.some.inj (hbranch.symm.trans hproposal)] at hsame
                      obtain ⟨existing, hblocking⟩ :=
                        Submission.blocking?_of_opened hsame (hfound ▸ hopened)
                      dsimp only
                      rw [hblocking, again_published hskipped existing]
                      exact stays_heard_pure _ _

/-- What is fetched does not depend on the board. -/
theorem staysOrOpens_fetch {dryRun : Bool} {distribution : String}
    {next : Except IndexError (List Release) → Exchange Entry}
    (hnext : StaysOrOpens fetched address stub dryRun (next (fetched distribution)) sight) :
    StaysOrOpens fetched address stub dryRun (fetch distribution >>= next) sight := by
  have hstays {later : Board.Sight} {entry : Entry}
      (hfetched : Stays fetched address stub (next (fetched distribution)) later entry) :
      Stays fetched address stub (fetch distribution >>= next) later entry := by
    refine Stays.query_bind trivial trivial ?_
    rintro reply ⟨rfl, _⟩
    exact hfetched
  rcases hnext with ⟨entry, hentry, hproposed⟩ | ⟨entry, branch, hsettles, hagain⟩
  · exact Or.inl ⟨entry, hstays hentry, hproposed⟩
  · refine Or.inr ⟨entry, branch, Settles.query_bind trivial ?_, fun later hopened =>
      hstays (hagain later hopened)⟩
    rintro reply later ⟨rfl, rfl⟩
    exact hsettles

theorem act_ends (config : Config) (package : Package) (latest : Option Version)
    (action : Action) (sight : Board.Sight) :
    StaysOrOpens fetched address package.name config.dryRun (act config package latest action)
      sight := by
  have hproposes : StaysOrOpens fetched address package.name config.dryRun
      (if config.filter.permits action then
        heard (Submission.propose config.dryRun package action)
          (concluded (entryOf package latest (.skipped (some action) .belowActionLevel)) action)
      else return entryOf package latest (.skipped (some action) .belowActionLevel)) sight := by
    split
    · exact propose_ends config.dryRun package action rfl sight
    · exact staysOrOpens_pure rfl
  cases action with
  | rest reason => exact staysOrOpens_pure rfl
  | review reason => exact staysOrOpens_pure rfl
  | update current target => exact hproposes
  | markObsolete since => exact hproposes

theorem task_ends (config : Config) (package : Package) (sight : Board.Sight) :
    StaysOrOpens fetched address package.name config.dryRun (task config package) sight := by
  unfold task
  split
  · refine staysOrOpens_fetch ?_
    cases fetched package.distribution with
    | error error => exact staysOrOpens_pure rfl
    | ok releases => exact act_ends config package _ _ sight
  · exact staysOrOpens_pure rfl

/-- A task has one end, whatever it is answered. -/
theorem task_settles (config : Config) (package : Package) (sight : Board.Sight) :
    ∃ entry marks,
      Settles fetched address package.name (task config package) sight entry marks := by
  rcases task_ends config package sight with ⟨entry, hstays, _⟩ | ⟨entry, branch, hsettles, _⟩
  · exact ⟨entry, sight.marks, hstays.settles⟩
  · exact ⟨entry, _, hsettles⟩

end Settled

section Surroundings

variable {σ : Type} {board : Board σ} {fetched : Releases} {stub : String}

/-- The surroundings of a run: an index whose answers do not change, and a
board. -/
def answer (fetched : Releases) (board : Board σ) :
    (question : Question) → σ → Reply question × σ
  | .fetch distribution, state => (fetched distribution, state)
  | .host question, state => board.answer question state

theorem answer_grants (hboard : board.IsExact) (fetched : Releases) (stub : String)
    (question : Question) (state : σ) :
    Grants fetched board.address stub question (board.sight stub state)
      (answer fetched board question state).1
      (board.sight stub (answer fetched board question state).2) := by
  match question with
  | .fetch distribution => exact ⟨rfl, rfl⟩
  | .host (.find query) =>
      intro hlead
      obtain ⟨hfound, hsame⟩ := hboard.find_sight hlead state
      exact ⟨hsame, hfound⟩
  | .host (.publish proposal) =>
      intro hown
      constructor
      · intro htaken
        obtain ⟨hreply, hsame⟩ := hboard.publish_taken hown htaken
        exact ⟨hsame, hreply⟩
      · intro hfree
        obtain ⟨hreply, hmarks, _⟩ := hboard.publish_free hown hfree
        exact ⟨hmarks, hreply⟩
  | .host (.issue title body) => trivial

/-- What a question of the package may do to the board. -/
theorem answer_cases (hboard : board.IsExact) {question : Question}
    (howns : Owns stub question) (state : σ) :
    board.Same state (answer fetched board question state).2 ∨
      ∃ branch, Proposal.isOf stub branch = true ∧
        board.Opens branch state (answer fetched board question state).2 := by
  match question with
  | .fetch distribution => exact Or.inl ⟨rfl, rfl⟩
  | .host (.find query) => exact Or.inl (hboard.find query state).2
  | .host (.publish proposal) =>
      cases htaken : board.taken state proposal.branch with
      | true => exact Or.inl (hboard.conflict proposal state htaken).2
      | false => exact Or.inr ⟨proposal.branch, howns, (hboard.publish proposal state htaken).2⟩
  | .host (.issue title body) => exact howns.elim

/-- Marks on branches that are not of the package stay. -/
theorem answer_marksOf (hboard : board.IsExact) {question : Question}
    (howns : Owns stub question) {kind : String → Bool}
    (hkind : ∀ branch, Proposal.isOf stub branch = true → kind branch = false) (state : σ) :
    board.marksOf kind (answer fetched board question state).2 = board.marksOf kind state := by
  rcases answer_cases hboard howns state with hsame | ⟨branch, hown, hopens⟩
  · exact hsame.marksOf kind
  · exact hopens.marksOf_of_not (hkind branch hown)

/-- What other packages see stays. -/
theorem answer_sight (hboard : board.IsExact) {question : Question}
    (howns : Owns stub question) {other : String} (hstub : Proposal.IsStubName stub)
    (hother : Proposal.IsStubName other) (hne : other ≠ stub) (state : σ) :
    board.sight other (answer fetched board question state).2 = board.sight other state := by
  rcases answer_cases hboard howns state with hsame | ⟨branch, hown, hopens⟩
  · exact hsame.sight other
  · apply hopens.sight_of_not
    apply eq_false_of_ne_true
    intro hof
    exact hne (Proposal.eq_of_isOf hother hstub hof hown)

variable {asks : Question → Prop} {post : Entry → Board.Sight → Prop}

theorem Ends.run (hboard : board.IsExact) {task : Exchange Entry} {state : σ}
    (hends : Ends fetched board.address stub asks post task (board.sight stub state)) :
    post (task.run (answer fetched board) state).1
      (board.sight stub (task.run (answer fetched board) state).2) :=
  (Interaction.AlwaysTraced.run (answer_grants hboard fetched stub) hends).1

/-- The step of a task asks a question of its kind, and the rest of the task
ends in the same way. -/
theorem Ends.step (hboard : board.IsExact) {question : Question}
    {next : Reply question → Exchange Entry} {state : σ}
    (hends : Ends fetched board.address stub asks post (.ask question next)
      (board.sight stub state)) :
    asks question ∧
      Ends fetched board.address stub asks post (next (answer fetched board question state).1)
        (board.sight stub (answer fetched board question state).2) := by
  constructor
  · have hrun := Interaction.AlwaysTraced.run (answer_grants hboard fetched stub) hends
    exact hrun.2 question List.mem_cons_self
  · have hnext := hends _ _ (answer_grants hboard fetched stub question state)
    refine Interaction.AlwaysTraced.mono hnext ?_
    rintro result last asked ⟨hresult, hasked⟩
    exact ⟨hresult, (List.forall_mem_cons.1 hasked).2⟩

end Surroundings

/-- The entry of a task is of its package. -/
theorem task_package {σ : Type} (answer : (question : Question) → σ → Reply question × σ)
    (config : Config) (package : Package) (state : σ) :
    ((task config package).run answer state).1.package = package.name :=
  ((task_paces config package).run answer state).1

end Run

end StubSync
