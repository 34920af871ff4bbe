/-
A server whose answers may be lost, refused or unreadable.

Nothing bounds how many answers say nothing, and a call may have been carried
out all the same.  Only what a readable answer tells is true.
-/
import StubSync.Proofs.Hosting.Forgetful

namespace StubSync

namespace GitHub

namespace Server

section Garbling

variable {ρ : Type} (telling : Telling ρ) (config : GitHub)

/-- What one attempt of a call may be answered, and what it may do, if answers
may be unreadable. -/
def Garbles (before : Server) (reply : ρ) (after : Server) : Call → Prop
  | .listPulls state head page =>
      after = before ∧ ∀ branch value pulls, state = "open" →
        head = some (config.headOf branch) → page = 1 → telling.value? reply = some value →
        Json.listOf? Pull.ofJson? value = some pulls → pulls = (before.pulls branch).toList
  | .readBranch branch =>
      after = before ∧ ∀ commit, telling.Carries ["object", "sha"] commit reply →
        before.branches branch = some commit
  | .createCommit message tree parent =>
      (after = before ∧ ∀ id, ¬ telling.Carries ["sha"] id reply) ∨
        ∃ id, before.IsFresh id ∧ after = before.withCommit ⟨id, message, tree, parent⟩ ∧
          ∀ told, telling.Carries ["sha"] told reply → told = id
  | .createBranch branch commit =>
      (after = before ∧ telling.value? reply = none) ∨
        (before.branches branch = none ∧ after = before.withBranch branch commit)
  | .openPull _ head _ _ =>
      after = before ∨ (before.branches head ≠ none ∧ before.pulls head = none ∧
        ∃ pull, after = before.withPull head pull)
  | .deleteBranch branch => after = before ∨ after = before.without branch
  | .readBase _ | .readCommit _ | .createTree _ _ | .createIssue _ _ => after = before

end Garbling

variable {config : GitHub} {before after : Server}

theorem eq_of_garbles {ρ : Type} {telling : Telling ρ} {reply : ρ} {call : Call}
    (hmethod : call.method = .get) (hgarbles : Garbles telling config before reply after call) :
    after = before := by
  cases call with
  | listPulls state head page => exact hgarbles.1
  | readBranch branch => exact hgarbles.1
  | readBase branch => exact hgarbles
  | readCommit commit => exact hgarbles
  | _ => cases hmethod

theorem garbles_comap {ρ τ : Type} {telling : Telling τ} {read : ρ → τ} {reply : ρ}
    {call : Call} (hgarbles : Garbles (telling.comap read) config before reply after call) :
    Garbles telling config before (read reply) after call := by
  cases call <;> exact hgarbles

/-- What the server may answer to a question about a branch if answers may be
unreadable. -/
def Mumbles (config : GitHub) (branch : String) :
    (question : Question) → Server → Reply question → Server → Prop
  | .attempt call, before, reply, after =>
      Concerns config branch call → Garbles .call config before reply after call
  | .pause _, before, _, after => after = before

/-- What the server may do when it is asked over the web, if answers may be
unreadable. -/
def Muddles (config : GitHub) (interface : Address) :
    (question : Http.Question) → Server → Http.Reply question → Server → Prop
  | .send request, before, reply, after =>
      match callOf? interface config.repository request with
      | some call => Garbles .web config before reply after call
      | none => request.method = .get → after = before
  | .pause _, before, _, after => after = before

end Server

open Interaction (answering)

open Server

section Spoiled

variable {config : GitHub} {policy : RetryPolicy} {interface : Address} {branch : String}
  {request : Http.Request} {call : Call} {before after : Server}
  {reply : Except Http.Failure Http.Answer}

theorem eq_of_muddles (hmethod : request.method = .get)
    (hmuddles : Muddles config interface (.send request) before reply after) :
    after = before := by
  cases hcall : callOf? interface config.repository request with
  | none =>
      simp only [Muddles, hcall] at hmuddles
      exact hmuddles hmethod
  | some call =>
      simp only [Muddles, hcall] at hmuddles
      exact eq_of_garbles ((method_of_callOf? hcall).trans hmethod) hmuddles

theorem garbles_of_muddles (hserved : config.IsServedAt interface)
    (hname : config.IsNameable branch) (hplus : '+' ∉ branch.toList)
    (hconcerns : Concerns config branch call)
    (hrequest : config.requestOf? call = some request)
    (hmuddles : Muddles config interface (.send request) before reply after) :
    Garbles .web config before reply after call := by
  have hmethod := method_of_requestOf? hrequest
  rcases callOf?_of_concerns hserved hname hconcerns hrequest with
    hcall | ⟨base, rfl⟩ | ⟨commit, rfl⟩
  · rw [Http.blanked_eq_self_iff.2 hplus, finding_self hconcerns] at hcall
    simp only [Muddles, hcall] at hmuddles
    exact hmuddles
  · exact eq_of_muddles hmethod hmuddles
  · exact eq_of_muddles hmethod hmuddles

/-- A client that goes by its calls is told no more by a server that is asked over
the web. -/
theorem mumbles_of_muddles {σ : Type}
    {answer : (question : Http.Question) → σ → Http.Reply question × σ} {view : σ → Server}
    (hserved : config.IsServedAt interface) (hname : config.IsNameable branch)
    (hplus : '+' ∉ branch.toList)
    (hanswer : ∀ question state,
      Muddles config interface question (view state) (answer question state).1
        (view (answer question state).2)) (question : Question) (state : σ) :
    Mumbles config branch question (view state)
      (answering config.overWeb answer question state).1
      (view (answering config.overWeb answer question state).2) := by
  cases question with
  | pause span => exact hanswer (.pause span) state
  | attempt call =>
      intro hconcerns
      obtain ⟨request, hrequest, _⟩ := exists_requestOf? hserved.reads call
      have hmuddles := hanswer (.send request) state
      have hgarbles := garbles_of_muddles hserved hname hplus hconcerns hrequest hmuddles
      rw [Telling.web_eq call.operation] at hgarbles
      rw [answering_attempt answer hrequest]
      exact garbles_comap hgarbles

section Telling

variable {ρ : Type} {telling : Telling ρ} {told : ρ}

theorem seen_of_reads {shown : Prop} (hreads : Reads telling policy before told after shown) :
    after.withLost 0 = before.withLost 0 ∧ (telling.lost told ∨ shown) := by
  rcases hreads with ⟨hlost, _, rfl⟩ | ⟨_, hshows, rfl⟩
  · exact ⟨rfl, Or.inl hlost⟩
  · exact ⟨rfl, Or.inr hshows⟩

/-- A list of pull requests that is answered is the list of the branch. -/
theorem pulls_of_shown {state : String} {head : Option String} {page : Nat} {value : Json}
    {pulls : List Pull}
    (hshows : telling.lost told ∨ Shows telling config before (.listPulls state head page) told)
    (hstate : state = "open") (hhead : head = some (config.headOf branch)) (hpage : page = 1)
    (hvalue : telling.value? told = some value)
    (hpulls : Json.listOf? Pull.ofJson? value = some pulls) :
    pulls = (before.pulls branch).toList := by
  rcases hshows with hlost | hshows
  · exact absurd hlost (telling.not_lost told value hvalue)
  · obtain ⟨other, hother, hlist⟩ := hshows branch hstate hhead hpage
    obtain rfl := Option.some.inj (hvalue.symm.trans hother)
    exact Option.some.inj (hpulls.symm.trans hlist)

/-- A commit that is answered is the one of the branch. -/
theorem branch_of_shown {commit : String}
    (hshows : telling.lost told ∨ Shows telling config before (.readBranch branch) told)
    (hcarries : telling.Carries ["object", "sha"] commit told) :
    before.branches branch = some commit := by
  obtain ⟨value, hvalue, hcommit⟩ := hcarries
  rcases hshows with hlost | hshows
  · exact absurd hlost (telling.not_lost told value hvalue)
  · cases hbranch : before.branches branch with
    | some head =>
        simp only [Shows, hbranch] at hshows
        obtain ⟨other, hother, hhead⟩ := hshows
        obtain rfl := Option.some.inj (hvalue.symm.trans hother)
        rw [hcommit] at hhead
        cases hhead
        rfl
    | none =>
        simp only [Shows, hbranch] at hshows
        rw [telling.silent told hshows] at hvalue
        cases hvalue

/-- Answers that are only lost are among the answers that may be unreadable. -/
theorem garbles_of_attempts
    (hattempts : Attempts telling config policy before told after call) :
    Garbles telling config (before.withLost 0) told (after.withLost 0) call := by
  cases call with
  | listPulls state head page =>
      obtain ⟨hafter, hshows⟩ := seen_of_reads hattempts
      refine ⟨hafter, ?_⟩
      intro branch value pulls hstate hhead hpage hvalue hpulls
      exact pulls_of_shown hshows hstate hhead hpage hvalue hpulls
  | readBranch branch =>
      obtain ⟨hafter, hshows⟩ := seen_of_reads hattempts
      refine ⟨hafter, ?_⟩
      intro commit hcarries
      change before.branches branch = some commit
      exact branch_of_shown hshows hcarries
  | readBase branch => exact (seen_of_reads hattempts).1
  | readCommit commit => exact (seen_of_reads hattempts).1
  | createTree base changes =>
      rcases hattempts with ⟨rfl, _⟩ | ⟨_, rfl, _⟩ <;> rfl
  | createIssue title body =>
      rcases hattempts with ⟨rfl, _⟩ | ⟨_, rfl, _⟩ <;> rfl
  | createCommit message tree parent =>
      obtain ⟨id, hcreates⟩ := hattempts
      rcases hcreates with ⟨rfl, hfails⟩ | ⟨hfresh, rfl, hdone⟩
      · refine Or.inl ⟨rfl, ?_⟩
        rintro id ⟨value, hvalue, _⟩
        rw [hfails] at hvalue
        cases hvalue
      · refine Or.inr ⟨id, hfresh, rfl, ?_⟩
        rintro told ⟨value, hvalue, htold⟩
        rcases hdone with ⟨other, hother, hid⟩ | hlost
        · obtain rfl := Option.some.inj (hvalue.symm.trans hother)
          rw [htold] at hid
          cases hid
          rfl
        · exact absurd hlost (telling.not_lost _ value hvalue)
  | createBranch branch commit =>
      rcases hattempts with ⟨rfl, hfails⟩ | ⟨hnone, rfl, _⟩
      · exact Or.inl ⟨rfl, hfails⟩
      · exact Or.inr ⟨hnone, rfl⟩
  | openPull title head base body =>
      obtain ⟨pull, hcreates⟩ := hattempts
      rcases hcreates with ⟨rfl, _⟩ | ⟨⟨hbranch, hnone⟩, rfl, _⟩
      · exact Or.inl rfl
      · exact Or.inr ⟨hbranch, hnone, pull, rfl⟩
  | deleteBranch branch =>
      rcases hattempts with ⟨_, _, rfl | rfl⟩ | ⟨_, rfl⟩
      · exact Or.inl rfl
      · exact Or.inr rfl
      · exact Or.inr rfl

/-- An answer that says nothing may stand in for any other. -/
theorem garbles_spoiled {other : ρ} (hgarbles : Garbles telling config before told after call)
    (hother : telling.value? other = none) : Garbles telling config before other after call := by
  have hsilent : ∀ path content, ¬ telling.Carries path content other := by
    rintro path content ⟨value, hvalue, _⟩
    rw [hother] at hvalue
    cases hvalue
  cases call with
  | listPulls state head page =>
      refine ⟨hgarbles.1, ?_⟩
      intro _ _ _ _ _ _ hvalue
      rw [hother] at hvalue
      cases hvalue
  | readBranch branch => exact ⟨hgarbles.1, fun _ hcarries => (hsilent _ _ hcarries).elim⟩
  | createCommit message tree parent =>
      rcases hgarbles with ⟨hafter, _⟩ | ⟨id, hfresh, hafter, _⟩
      · exact Or.inl ⟨hafter, hsilent _⟩
      · exact Or.inr ⟨id, hfresh, hafter, fun _ hcarries => (hsilent _ _ hcarries).elim⟩
  | createBranch branch commit =>
      rcases hgarbles with ⟨hafter, _⟩ | hcreated
      · exact Or.inl ⟨hafter, hother⟩
      · exact Or.inr hcreated
  | readBase branch => exact hgarbles
  | readCommit commit => exact hgarbles
  | createTree base changes => exact hgarbles
  | deleteBranch branch => exact hgarbles
  | openPull title head base body => exact hgarbles
  | createIssue title body => exact hgarbles

end Telling

/-- What there is on the server, whatever has been lost. -/
def Forgetful.seen (server : Forgetful) : Server :=
  server.view.withLost 0

/-- The forgetful server, with other answers in the place of some of its own. -/
def Forgetful.spoil (config : GitHub) (policy : RetryPolicy) (interface : Address)
    (other? : Call → Option (Except Http.Failure Http.Answer)) :
    (question : Http.Question) → Forgetful → Http.Reply question × Forgetful
  | .send request, server =>
      let (reply, later) := Forgetful.answer config policy interface (.send request) server
      match (callOf? interface config.repository request).bind other? with
      | some other => (other, later)
      | none => (reply, later)
  | .pause _, server => ((), server)

theorem Forgetful.spoil_muddles (config : GitHub) (policy : RetryPolicy) (interface : Address)
    {other? : Call → Option (Except Http.Failure Http.Answer)}
    (hother : ∀ call other, other? call = some other → Telling.web.value? other = none)
    (question : Http.Question) (server : Forgetful) :
    Muddles config interface question server.seen
      (spoil config policy interface other? question server).1
      (spoil config policy interface other? question server).2.seen := by
  cases question with
  | pause span => rfl
  | send request =>
      simp only [Muddles, spoil, answer]
      cases callOf? interface config.repository request with
      | none =>
          intro _
          exact (seen_of_reads (read_reads (fun _ => True) (not_lost_missing _) trivial)).1
      | some call =>
          have hgarbles := garbles_of_attempts (attempt_attempts config policy server call)
          simp only [Option.bind_some]
          cases hspoiled : other? call with
          | none => exact hgarbles
          | some other => exact garbles_spoiled hgarbles (hother call other hspoiled)

end Spoiled

end GitHub

end StubSync
