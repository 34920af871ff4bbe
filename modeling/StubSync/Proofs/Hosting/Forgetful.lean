/-
A server that forgets to answer: the notion of a server is not empty.
-/
import StubSync.Proofs.Hosting.Handling
import StubSync.Proofs.Json.Document

namespace StubSync

namespace GitHub

open Server

/-- A server that does all it is asked for as far as it is possible. -/
structure Forgetful where
  branches : List (String × String)
  /-- The heads of the open pull requests. -/
  heads : List String
  commits : List Commit
  lost : Nat
  /-- It loses every answer that may be lost. -/
  loses : Bool := true
  /-- Pull requests may be opened. -/
  opens : Bool := true
deriving Repr, DecidableEq

namespace Forgetful

/-- The only commit that is ever created. -/
def newCommit : String := "c0ffee"

def pullOf (branch : String) : Pull :=
  ⟨7, "https://example.com/pull/7", "open", none, branch⟩

def pullJson (branch : String) : Json :=
  .object [("number", .number "7"), ("html_url", .text "https://example.com/pull/7"),
    ("state", .text "open"), ("head", .object [("ref", .text branch)])]

def idJson (id : String) : Json :=
  .object [("sha", .text id)]

theorem ofJson?_pullJson (branch : String) :
    Pull.ofJson? (pullJson branch) = some (pullOf branch) := by
  rfl

def view (server : Forgetful) : Server where
  branches branch := server.branches.lookup branch
  pulls branch := if branch ∈ server.heads then some (pullOf branch) else none
  commits := server.commits
  lost := server.lost

section Answers

def said (value : Json) : Except Http.Failure Http.Answer :=
  .ok ⟨200, .ok value.compact⟩

def refused (status : Nat) (message : String) : Except Http.Failure Http.Answer :=
  .ok ⟨status, .ok message⟩

/-- The answer to a call that only reads, unless one more may be lost. -/
def read (policy : RetryPolicy) (server : Forgetful) (reply : Except Http.Failure Http.Answer) :
    Except Http.Failure Http.Answer × Forgetful :=
  if server.loses ∧ server.lost < policy.maxRetries then
    (.error .timeout, { server with lost := server.lost + 1 })
  else (reply, { server with lost := 0 })

def showBranch (server : Forgetful) (branch : String) : Except Http.Failure Http.Answer :=
  match server.branches.lookup branch with
  | some commit => said (.object [("object", idJson commit)])
  | none => refused 404 "Not Found"

def showPulls (config : GitHub) (server : Forgetful) (head : Option String) :
    Except Http.Failure Http.Answer :=
  let found := server.heads.find? fun branch => head == some (config.headOf branch)
  said (.list (found.toList.map pullJson))

/-- The answer to a call that has been carried out and may not be made again. -/
def done (server : Forgetful) (value : Json) : Except Http.Failure Http.Answer :=
  if server.loses then .error .timeout else said value

def attempt (config : GitHub) (policy : RetryPolicy) (server : Forgetful) :
    Call → Except Http.Failure Http.Answer × Forgetful
  | .listPulls _ head _ => server.read policy (showPulls config server head)
  | .readBranch branch | .readBase branch => server.read policy (server.showBranch branch)
  | .readCommit _ => server.read policy (said (.object [("tree", idJson "beef")]))
  | .createTree _ _ => (said (idJson "cafe"), server)
  | .createCommit message tree parent =>
      if server.branches.any fun entry => entry.2 == newCommit then
        (refused 422 "Unprocessable Entity", server)
      else
        (said (idJson newCommit),
          { server with commits := ⟨newCommit, message, tree, parent⟩ :: server.commits })
  | .createBranch branch commit =>
      if (server.branches.lookup branch).isSome then (refused 422 "Unprocessable Entity", server)
      else
        (server.done (idJson commit),
          { server with branches := (branch, commit) :: server.branches })
  | .openPull _ head _ _ =>
      if !server.opens then (refused 403 "Forbidden", server)
      else if (server.branches.lookup head).isSome && !server.heads.contains head then
        (server.done (pullJson head), { server with heads := head :: server.heads })
      else (refused 422 "Unprocessable Entity", server)
  | .createIssue _ _ => (refused 422 "Unprocessable Entity", server)
  | .deleteBranch branch =>
      let rest := { server with
        branches := server.branches.filter fun entry => entry.1 != branch
        heads := server.heads.filter fun head => head != branch }
      if server.loses ∧ server.lost < policy.maxRetries then
        (.error .timeout, { rest with lost := server.lost + 1 })
      else (.ok ⟨204, .ok ""⟩, { rest with lost := 0 })

/-- The server that is asked over the web. -/
def answer (config : GitHub) (policy : RetryPolicy) (interface : Address) :
    (question : Http.Question) → Forgetful → Http.Reply question × Forgetful
  | .send request, server =>
      match callOf? interface config.repository request with
      | some call => server.attempt config policy call
      | none => server.read policy (refused 404 "Not Found")
  | .pause _, server => ((), server)

end Answers

section Documents

open Json (IsWhole depthLimit kept? kept?_list kept?_object)

/-- A document that comes back as it is when it is answered. -/
structure IsAnswerable (value : Json) : Prop where
  whole : IsWhole value
  kept : kept? depthLimit value = some value
  opens : ∃ c rest, value.compact.toList = c :: rest ∧ (c = '[' ∨ c = '\x7b')

theorem value?_said {value : Json} (hvalue : IsAnswerable value) :
    Telling.web.value? (said value) = some value := by
  obtain ⟨c, rest, hopens, hc⟩ := hvalue.opens
  have hmark : Text.withoutOrderMark value.compact.toList = value.compact.toList := by
    rw [hopens, Text.withoutOrderMark, if_neg]
    rcases hc with rfl | rfl <;> decide
  have hblank : Text.isBlankText value.compact = false := by
    rw [Text.isBlankText, hopens, List.all_cons]
    rcases hc with rfl | rfl <;> rfl
  have htext : (Http.Answer.mk 200 (.ok value.compact)).text = .ok value.compact := by
    rw [Http.Answer.text, Except.map, hmark, String.ofList_toList]
  have hread : Json.readKept? value.compact = some value := by
    rw [Json.readKept?, Json.read?_compact hvalue.whole, Option.bind_some, hvalue.kept]
  simp [said, Telling.web, htext, Http.Answer.isSuccess, document?, hblank, hread]

theorem isAnswerable_idJson (id : String) : IsAnswerable (idJson id) where
  whole := .object (List.forall_mem_singleton.2 (.text id))
  kept := rfl
  opens := ⟨_, _, String.toList_ofList, Or.inr rfl⟩

theorem isAnswerable_branch (commit : String) :
    IsAnswerable (.object [("object", idJson commit)]) where
  whole := .object (List.forall_mem_singleton.2 (isAnswerable_idJson commit).whole)
  kept := rfl
  opens := ⟨_, _, String.toList_ofList, Or.inr rfl⟩

theorem kept?_seven (depth : Nat) : kept? depth (.number "7") = some (.number "7") := by
  have hread : Json.scientific? "7".toList = some { whole := ['7'] } := by decide
  have hrange : Json.isOutOfRange { whole := ['7'] } = false := by decide +kernel
  rw [kept?]
  simp only [hread, hrange]
  rfl

theorem kept?_pullJson (depth : Nat) (branch : String) :
    kept? (depth + 2) (pullJson branch) = some (pullJson branch) := by
  refine kept?_object (List.forall_mem_cons.2 ⟨kept?_seven (depth + 1), ?_⟩)
  refine List.forall_mem_cons.2 ⟨rfl, List.forall_mem_cons.2 ⟨rfl, ?_⟩⟩
  exact List.forall_mem_singleton.2 (kept?_object (List.forall_mem_singleton.2 rfl))

theorem isAnswerable_pullJson (branch : String) : IsAnswerable (pullJson branch) where
  whole := by
    refine .object (List.forall_mem_cons.2 ⟨.number (by decide), ?_⟩)
    refine List.forall_mem_cons.2 ⟨.text _, List.forall_mem_cons.2 ⟨.text _, ?_⟩⟩
    exact List.forall_mem_singleton.2 (.object (List.forall_mem_singleton.2 (.text branch)))
  kept := kept?_pullJson 125 branch
  opens := ⟨_, _, String.toList_ofList, Or.inr rfl⟩

theorem isAnswerable_pulls (found : Option String) :
    IsAnswerable (.list (found.toList.map pullJson)) := by
  cases found with
  | none => exact ⟨.list (List.forall_mem_nil _), rfl, _, _, String.toList_ofList, Or.inl rfl⟩
  | some branch =>
      have hwhole := (isAnswerable_pullJson branch).whole
      have hkept := kept?_list (List.forall_mem_singleton.2 (kept?_pullJson 124 branch))
      exact ⟨.list (List.forall_mem_singleton.2 hwhole), hkept, _, _, String.toList_ofList,
        Or.inl rfl⟩

end Documents

theorem lookup_filter_ne {asked branch : String} (hasked : asked ≠ branch)
    (branches : List (String × String)) :
    (branches.filter fun entry => entry.1 != branch).lookup asked = branches.lookup asked := by
  induction branches with
  | nil => rfl
  | cons entry others ih =>
      obtain ⟨name, commit⟩ := entry
      by_cases hname : name = branch
      · have hother : (asked == name) = false := by simpa [hname] using hasked
        simpa [List.filter_cons, hname, List.lookup_cons, hname ▸ hother] using ih
      · simp [hname, List.lookup_cons, ih]

theorem view_without (server : Forgetful) (branch : String) (lost : Nat) :
    view { server with
        branches := server.branches.filter fun entry => entry.1 != branch
        heads := server.heads.filter fun head => head != branch
        lost := lost } =
      (server.view.without branch).withLost lost := by
  have hbranches : (fun asked =>
      (server.branches.filter fun entry => entry.1 != branch).lookup asked) =
        Function.update (fun asked => server.branches.lookup asked) branch none := by
    funext asked
    by_cases hasked : asked = branch
    · subst hasked
      rw [Function.update_self, List.lookup_eq_none_iff]
      intro entry hentry
      have hother : entry.1 ≠ asked := by simpa using (List.mem_filter.1 hentry).2
      simpa using hother.symm
    · rw [Function.update_of_ne hasked, lookup_filter_ne hasked]
  have hpulls : (fun asked =>
      if asked ∈ server.heads.filter fun head => head != branch then some (pullOf asked)
      else none) =
        Function.update (fun asked => if asked ∈ server.heads then some (pullOf asked) else none)
          branch none := by
    funext asked
    by_cases hasked : asked = branch
    · simp [hasked]
    · simp [hasked]
  simp only [view, without, withLost, hbranches, hpulls]

theorem view_withBranch (server : Forgetful) (branch commit : String) :
    view { server with branches := (branch, commit) :: server.branches } =
      server.view.withBranch branch commit := by
  have hbranches : (fun asked => List.lookup asked ((branch, commit) :: server.branches)) =
      Function.update (fun asked => server.branches.lookup asked) branch (some commit) := by
    funext asked
    by_cases hasked : asked = branch
    · simp [hasked]
    · have hother : (asked == branch) = false := by simpa using hasked
      simp [List.lookup_cons, hother, hasked]
  simp only [view, withBranch, hbranches]

theorem view_withPull (server : Forgetful) (branch : String) :
    view { server with heads := branch :: server.heads } =
      server.view.withPull branch (pullOf branch) := by
  have hpulls : (fun asked =>
      if asked ∈ branch :: server.heads then some (pullOf asked) else none) =
        Function.update (fun asked => if asked ∈ server.heads then some (pullOf asked) else none)
          branch (some (pullOf branch)) := by
    funext asked
    by_cases hasked : asked = branch <;> simp [hasked]
  simp only [view, withPull, hpulls]

theorem isFresh_newCommit {server : Forgetful}
    (hnone : (server.branches.any fun entry => entry.2 == newCommit) = false) :
    server.view.IsFresh newCommit := by
  intro branch hbranch
  obtain ⟨earlier, later, hbranches, _⟩ := List.lookup_eq_some_iff.1 hbranch
  simp [hbranches] at hnone

section Serving

variable {config : GitHub} {policy : RetryPolicy} {server : Forgetful}

theorem value?_refused {status : Nat} (hstatus : 300 ≤ status) (message : String) :
    Telling.web.value? (refused status message) = none := by
  have hrefused : ¬ status < 300 := Nat.not_lt.2 hstatus
  simp [refused, Telling.web, Http.Answer.text, Except.map, Http.Answer.isSuccess, hrefused]

theorem missing_refused (message : String) : Telling.web.missing (refused 404 message) :=
  rfl

theorem not_lost_said {value : Json} (hvalue : IsAnswerable value) :
    ¬ Telling.web.lost (said value) :=
  Telling.web.not_lost _ value (value?_said hvalue)

theorem not_lost_missing (message : String) : ¬ Telling.web.lost (refused 404 message) := by
  simp [refused, Telling.web, Http.Answer.text, Except.map, IsOutage]

/-- What is shown of pull requests is true: a branch is known by its head. -/
theorem shows_pulls (config : GitHub) (server : Forgetful) (state : String)
    (head : Option String) (page : Nat) :
    Shows .web config server.view (.listPulls state head page)
      (showPulls config server head) := by
  rintro branch _ rfl _
  have hhead : ∀ other, config.headOf branch = config.headOf other → other = branch := by
    intro other hsame
    simpa [headOf] using hsame.symm
  refine ⟨_, value?_said (isAnswerable_pulls _), ?_⟩
  by_cases hopen : branch ∈ server.heads
  · have hfound : server.heads.find? (fun other =>
        config.headOf branch == config.headOf other) = some branch := by
      cases hresult : server.heads.find? fun other =>
          config.headOf branch == config.headOf other with
      | none => simpa using List.find?_eq_none.1 hresult branch hopen
      | some other =>
          have hsame := List.find?_some hresult
          rw [hhead other (by simpa using hsame)]
    simp [hfound, view, hopen, Json.listOf?, Json.items?, ofJson?_pullJson]
  · have hnone : server.heads.find? (fun other =>
        config.headOf branch == config.headOf other) = none := by
      refine List.find?_eq_none.2 fun other hother hsame => hopen ?_
      exact hhead other (by simpa using hsame) ▸ hother
    simp [hnone, view, hopen, Json.listOf?, Json.items?]

theorem shows_branch (config : GitHub) (server : Forgetful) (branch : String) :
    Shows .web config server.view (.readBranch branch) (server.showBranch branch) := by
  simp only [Shows, view, showBranch]
  cases server.branches.lookup branch with
  | some commit => exact ⟨_, value?_said (isAnswerable_branch commit), rfl⟩
  | none => exact missing_refused _

theorem not_lost_showBranch (server : Forgetful) (branch : String) :
    ¬ Telling.web.lost (server.showBranch branch) := by
  unfold showBranch
  cases server.branches.lookup branch with
  | some commit => exact not_lost_said (isAnswerable_branch commit)
  | none => exact not_lost_missing _

/-- What is read is lost as often as it may be, if at all. -/
theorem read_reads {reply : Except Http.Failure Http.Answer}
    (shown : Except Http.Failure Http.Answer → Prop) (hreply : ¬ Telling.web.lost reply)
    (hshown : shown reply) :
    Reads .web policy server.view (server.read policy reply).1
      (server.read policy reply).2.view (shown (server.read policy reply).1) := by
  unfold read
  split
  · rename_i hleft
    exact Or.inl ⟨trivial, hleft.2, rfl⟩
  · exact Or.inr ⟨hreply, hshown, rfl⟩

/-- What has been carried out is answered, or its answer is lost. -/
theorem value?_done {value : Json} (hvalue : IsAnswerable value) :
    Telling.web.value? (server.done value) = some value ∨ Telling.web.lost (server.done value) := by
  unfold done
  split
  · exact Or.inr trivial
  · exact Or.inl (value?_said hvalue)

theorem attempt_attempts (config : GitHub) (policy : RetryPolicy) (server : Forgetful)
    (call : Call) :
    Attempts .web config policy server.view (server.attempt config policy call).1
      (server.attempt config policy call).2.view call := by
  cases call with
  | listPulls state head page =>
      exact read_reads _ (not_lost_said (isAnswerable_pulls _))
        (shows_pulls config server state head page)
  | readBranch branch =>
      exact read_reads _ (server.not_lost_showBranch branch) (shows_branch config server branch)
  | readBase branch =>
      exact read_reads (fun _ => True) (server.not_lost_showBranch branch) trivial
  | readCommit commit =>
      have htree : IsAnswerable (.object [("tree", idJson "beef")]) :=
        ⟨.object (List.forall_mem_singleton.2 (isAnswerable_idJson "beef").whole), rfl, _, _,
          String.toList_ofList, Or.inr rfl⟩
      exact read_reads (fun _ => True) (not_lost_said htree) trivial
  | createTree base changes =>
      exact Or.inr ⟨trivial, rfl, Or.inl ⟨_, _, value?_said (isAnswerable_idJson _), rfl⟩⟩
  | createCommit message tree parent =>
      refine ⟨newCommit, ?_⟩
      simp only [attempt]
      split
      · exact Or.inl ⟨rfl, value?_refused (by decide) _⟩
      · rename_i hfresh
        refine Or.inr ⟨isFresh_newCommit (eq_false_of_ne_true hfresh), rfl, ?_⟩
        exact Or.inl ⟨_, value?_said (isAnswerable_idJson _), rfl⟩
  | createBranch branch commit =>
      simp only [Attempts, attempt]
      split
      · exact Or.inl ⟨rfl, value?_refused (by decide) _⟩
      · rename_i hnone
        refine Or.inr ⟨Option.not_isSome_iff_eq_none.1 hnone, ?_, ?_⟩
        · exact view_withBranch server branch commit
        · exact (value?_done (isAnswerable_idJson commit)).imp_left fun htold => ⟨_, htold⟩
  | openPull title head base body =>
      refine ⟨pullOf head, ?_⟩
      simp only [attempt]
      split
      · exact Or.inl ⟨rfl, value?_refused (by decide) _⟩
      · split
        · rename_i hpossible
          simp only [Bool.and_eq_true, Bool.not_eq_true', List.contains_eq_mem,
            decide_eq_false_iff_not] at hpossible
          refine Or.inr ⟨⟨?_, by simp [view, hpossible.2]⟩, view_withPull server head, ?_⟩
          · exact Option.isSome_iff_ne_none.1 hpossible.1
          · exact (value?_done (isAnswerable_pullJson head)).imp_left fun htold =>
              ⟨_, htold, ofJson?_pullJson head⟩
        · exact Or.inl ⟨rfl, value?_refused (by decide) _⟩
  | createIssue title body => exact Or.inl ⟨rfl, value?_refused (by decide) _⟩
  | deleteBranch branch =>
      have hempty : ¬ Telling.web.lost (.ok ⟨204, .ok ""⟩) := by
        simp [Telling.web, Http.Answer.text, Except.map, IsOutage]
      simp only [Attempts, attempt]
      split
      · rename_i hleft
        exact Or.inl ⟨trivial, hleft.2, Or.inr (view_without server branch (server.lost + 1))⟩
      · exact Or.inr ⟨hempty, view_without server branch 0⟩

theorem answer_handles (config : GitHub) (policy : RetryPolicy) (interface : Address)
    (question : Http.Question) (server : Forgetful) :
    Handles config policy interface question server.view
      (answer config policy interface question server).1
      (answer config policy interface question server).2.view := by
  cases question with
  | pause span => rfl
  | send request =>
      simp only [Handles, answer]
      cases callOf? interface config.repository request with
      | some call => exact attempt_attempts config policy server call
      | none => exact fun _ => read_reads (fun _ => True) (not_lost_missing _) trivial

end Serving

end Forgetful

end GitHub

end StubSync
