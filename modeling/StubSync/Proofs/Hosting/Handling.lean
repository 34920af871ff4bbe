/-
A server that is asked over the web.

It takes each request for a call, and answers with a status and a text.  What is
made of the answer tells the client as much as the answer itself, so a client
that goes by its calls is served as the account of the server says, as long as
its requests are taken for these calls.
-/
import StubSync.Proofs.Hosting.Requests
import StubSync.Proofs.Hosting.Server

namespace StubSync

namespace GitHub

open Http (IsPathText blanked isValueChar)

open Interaction (answering)

/-- The value that the text of an answer stands for; an empty text says nothing. -/
def document? (text : String) : Option Json :=
  if Text.isBlankText text then some .null else Json.readKept? text

/-- The answer only says that the server is overloaded or out of order. -/
def IsOutage (status : Nat) (text : String) : Prop :=
  status = 429 ∨ 500 ≤ status ∨ status = 403 ∧ mentionsRateLimit (refusal text) = true

theorem isTransient_ofRefusal_iff (operation : String) {status : Nat} {text : String} :
    (ofRefusal operation status text).isTransient = true ↔ IsOutage status text := by
  simp only [ofRefusal, IsOutage]
  split
  · rename_i hlimit
    exact iff_of_true rfl (hlimit.imp_right Or.inr)
  · rename_i hother
    rw [not_or] at hother
    simp [HostingError.isTransient, hother.1, hother.2]

theorem ofRefusal_eq_missing_iff (operation : String) {status : Nat} {text : String} :
    (∃ other message, ofRefusal operation status text = .rejected other 404 message) ↔
      status = 404 := by
  simp only [ofRefusal]
  constructor
  · rintro ⟨other, message, hrefusal⟩
    split at hrefusal
    · cases hrefusal
    · cases hrefusal
      rfl
  · rintro rfl
    exact ⟨operation, refusal text, if_neg (by simp)⟩

theorem not_isOutage_of_isSuccess {answer : Http.Answer} (hsuccess : answer.isSuccess = true)
    (text : String) : ¬ IsOutage answer.status text := by
  simp only [Http.Answer.isSuccess, Bool.and_eq_true, decide_eq_true_eq] at hsuccess
  unfold IsOutage
  omega

namespace Telling

/-- What answers to requests tell. -/
def web : Telling (Except Http.Failure Http.Answer) where
  lost
    | .error _ => True
    | .ok answer =>
        match answer.text with
        | .error _ => True
        | .ok text => IsOutage answer.status text
  missing
    | .error _ => False
    | .ok answer =>
        match answer.text with
        | .error _ => False
        | .ok _ => answer.status = 404
  value?
    | .error _ => none
    | .ok answer =>
        match answer.text with
        | .error _ => none
        | .ok text => if answer.isSuccess then document? text else none
  not_lost := by
    rintro (failure | answer) value hvalue
    · cases hvalue
    · cases htext : answer.text with
      | error failure =>
          simp only [htext] at hvalue
          cases hvalue
      | ok text =>
          simp only [htext, Option.ite_none_right_eq_some] at hvalue ⊢
          exact not_isOutage_of_isSuccess hvalue.1 text
  silent := by
    rintro (failure | answer) hmissing
    · rfl
    · cases htext : answer.text with
      | error failure => simp only [htext]
      | ok text =>
          simp only [htext] at hmissing
          simp [htext, Http.Answer.isSuccess, hmissing]

section Web

variable (operation : String) {answer : Http.Answer} {text : String}

theorem isLost_ofFailure (failure : Http.Failure) :
    IsLost (.error (ofFailure operation failure)) := by
  cases failure <;> exact ⟨_, rfl, rfl⟩

theorem ofAnswer_of_refused (htext : answer.text = .ok text) (hrefused : answer.isSuccess = false) :
    ofAnswer operation (.ok answer) = .error (ofRefusal operation answer.status text) := by
  simp [ofAnswer, htext, hrefused]

/-- A document that cannot be read is an error that does not pass. -/
theorem ofAnswer_of_isSuccess (htext : answer.text = .ok text)
    (hsuccess : answer.isSuccess = true) :
    ofAnswer operation (.ok answer) = match document? text with
      | some value => .ok value
      | none => .error (.invalid operation "this is no JSON document") := by
  simp only [ofAnswer, htext, hsuccess, document?, Bool.not_true, Bool.false_eq_true, if_false]
  split
  · rfl
  · rfl

variable (reply : Except Http.Failure Http.Answer)

theorem lost_web_iff : web.lost reply ↔ IsLost (ofAnswer operation reply) := by
  rcases reply with failure | answer
  · exact iff_of_true trivial (isLost_ofFailure operation failure)
  · cases htext : answer.text with
    | error failure =>
        simp only [web, htext, ofAnswer, true_iff]
        exact isLost_ofFailure operation failure
    | ok text =>
        simp only [web, htext]
        cases hsuccess : answer.isSuccess with
        | false =>
            rw [ofAnswer_of_refused operation htext hsuccess, isLost_error_iff,
              isTransient_ofRefusal_iff]
        | true =>
            rw [ofAnswer_of_isSuccess operation htext hsuccess]
            refine iff_of_false (not_isOutage_of_isSuccess hsuccess text) ?_
            cases document? text with
            | none => simp [isLost_error_iff, HostingError.isTransient]
            | some value => exact not_isLost_ok value

theorem missing_web_iff : web.missing reply ↔ call.missing (ofAnswer operation reply) := by
  have hfailed : ∀ failure, ¬ call.missing (.error (ofFailure operation failure)) := by
    rintro (_ | message) ⟨_, _, herror⟩ <;> cases herror
  rcases reply with failure | answer
  · exact iff_of_false id (hfailed failure)
  · cases htext : answer.text with
    | error failure =>
        simp only [web, htext, ofAnswer, false_iff]
        exact hfailed failure
    | ok text =>
        simp only [web, htext]
        cases hsuccess : answer.isSuccess with
        | false =>
            rw [ofAnswer_of_refused operation htext hsuccess]
            simp only [call, Except.error.injEq, ofRefusal_eq_missing_iff]
        | true =>
            rw [ofAnswer_of_isSuccess operation htext hsuccess]
            refine iff_of_false ?_ ?_
            · intro hmissing
              simp [Http.Answer.isSuccess, hmissing] at hsuccess
            · rintro ⟨_, _, herror⟩
              cases hvalue : document? text <;> simp [hvalue] at herror

theorem value?_web : web.value? reply = (ofAnswer operation reply).toOption := by
  rcases reply with failure | answer
  · rfl
  · cases htext : answer.text with
    | error failure => simp [web, htext, ofAnswer, Except.toOption]
    | ok text =>
        cases hsuccess : answer.isSuccess with
        | false =>
            rw [ofAnswer_of_refused operation htext hsuccess]
            simp [web, htext, hsuccess, Except.toOption]
        | true =>
            rw [ofAnswer_of_isSuccess operation htext hsuccess]
            simp only [web, htext, hsuccess, if_true]
            cases document? text <;> rfl

/-- What is made of an answer tells what the answer tells. -/
theorem web_eq : web = call.comap (ofAnswer operation) :=
  Telling.ext (funext fun reply => propext (lost_web_iff operation reply))
    (funext fun reply => propext (missing_web_iff operation reply))
    (funext (value?_web operation))

end Web

end Telling

/-- The branch can be put into the addresses of requests: into a path, and into
the query that looks for its pull request. -/
structure IsNameable (config : GitHub) (branch : String) : Prop where
  path : IsPathText branch.toList
  query : ∀ c ∈ (config.headOf branch).toList, isValueChar c = true
  owner : '+' ∉ config.owner.toList

/-- What the server may do when it is asked over the web, and what it has after
it.  A request that it takes for no call changes nothing if it reads. -/
def Server.Handles (config : GitHub) (policy : RetryPolicy) (interface : Address) :
    (question : Http.Question) → Server → Http.Reply question → Server → Prop
  | .send request, before, reply, after =>
      match callOf? interface config.repository request with
      | some call => Attempts .web config policy before reply after call
      | none => request.method = .get → Reads .web policy before reply after True
  | .pause _, before, _, after => after = before

section Handling

open Server

variable {config : GitHub} {policy : RetryPolicy} {interface : Address} {branch : String}
  {request : Http.Request} {call : Call} {before after : Server}
  {reply : Except Http.Failure Http.Answer}

theorem attempts_ofAnswer (hattempts : Attempts .web config policy before reply after call)
    (operation : String) :
    Attempts .call config policy before (ofAnswer operation reply) after call := by
  rw [Telling.web_eq operation] at hattempts
  exact attempts_comap hattempts

theorem reads_of_handles (hmethod : request.method = .get)
    (hhandles : Handles config policy interface (.send request) before reply after) :
    Reads .web policy before reply after True := by
  cases hcall : callOf? interface config.repository request with
  | none =>
      simp only [Handles, hcall] at hhandles
      exact hhandles hmethod
  | some call =>
      simp only [Handles, hcall] at hhandles
      have hreads := reads_of_attempts ((method_of_callOf? hcall).trans hmethod) hhandles
      exact hreads.imp_right fun ⟨hlost, _, hafter⟩ => ⟨hlost, trivial, hafter⟩

theorem blanked_headOf (howner : '+' ∉ config.owner.toList) (branch : String) :
    blanked (config.headOf branch) = config.headOf (blanked branch) := by
  have hlead : '+' ∉ (config.owner ++ ":").toList := by
    rw [String.toList_append, List.mem_append, not_or]
    exact ⟨howner, by decide⟩
  rw [headOf, headOf, Http.blanked_append, Http.blanked_eq_self_iff.2 hlead]

/-- The calls about a branch are taken for what they are, but for blanks out of `+`
where its pull request is looked for.  What is read on the way to the commit may
be taken for anything. -/
theorem callOf?_of_concerns (hserved : config.IsServedAt interface)
    (hname : config.IsNameable branch) (hconcerns : Concerns config branch call)
    (hrequest : config.requestOf? call = some request) :
    callOf? interface config.repository request =
        some (call.finding config (blanked branch)) ∨
      (∃ base, call = .readBase base) ∨ ∃ commit, call = .readCommit commit := by
  cases call with
  | readBase base => exact Or.inr (Or.inl ⟨base, rfl⟩)
  | readCommit commit => exact Or.inr (Or.inr ⟨commit, rfl⟩)
  | listPulls state head page =>
      obtain ⟨rfl, rfl⟩ := hconcerns
      have hopen : "open".toList = ['o', 'p', 'e', 'n'] := by decide
      have hstate : ∀ c ∈ "open".toList, isValueChar c = true ∧ c ≠ '+' := by
        simp [hopen, isValueChar]
      have hcall := callOf?_listPulls hserved hstate hname.query hrequest
      rw [blanked_headOf hname.owner] at hcall
      exact Or.inl hcall
  | readBranch other =>
      obtain rfl : other = branch := hconcerns
      exact Or.inl (callOf?_readBranch hserved hname.path hrequest)
  | deleteBranch other =>
      obtain rfl : other = branch := hconcerns
      exact Or.inl (callOf?_deleteBranch hserved hname.path hrequest)
  | createTree base changes => exact Or.inl (callOf?_creation hserved rfl hrequest)
  | createCommit message tree parent => exact Or.inl (callOf?_creation hserved rfl hrequest)
  | createBranch other commit => exact Or.inl (callOf?_creation hserved rfl hrequest)
  | openPull title head base body => exact Or.inl (callOf?_creation hserved rfl hrequest)
  | createIssue title body => exact Or.inl (callOf?_creation hserved rfl hrequest)

theorem attempts_of_handles (hserved : config.IsServedAt interface)
    (hname : config.IsNameable branch) (hconcerns : Concerns config branch call)
    (hrequest : config.requestOf? call = some request)
    (hhandles : Handles config policy interface (.send request) before reply after) :
    Attempts .web config policy before reply after (call.finding config (blanked branch)) := by
  have hmethod := method_of_requestOf? hrequest
  rcases callOf?_of_concerns hserved hname hconcerns hrequest with
    hcall | ⟨base, rfl⟩ | ⟨commit, rfl⟩
  · simp only [Handles, hcall] at hhandles
    exact hhandles
  · exact reads_of_handles hmethod hhandles
  · exact reads_of_handles hmethod hhandles

/-- A client that goes by its calls is served by a server that is asked over the
web. -/
theorem serves_of_handles {σ : Type}
    {answer : (question : Http.Question) → σ → Http.Reply question × σ} {view : σ → Server}
    (hserved : config.IsServedAt interface) (hname : config.IsNameable branch)
    (hanswer : ∀ question state,
      Handles config policy interface question (view state) (answer question state).1
        (view (answer question state).2)) (question : Question) (state : σ) :
    Serves config policy branch (blanked branch) question (view state)
      (answering config.overWeb answer question state).1
      (view (answering config.overWeb answer question state).2) := by
  cases question with
  | pause span => exact hanswer (.pause span) state
  | attempt call =>
      intro hconcerns
      obtain ⟨request, hrequest, _⟩ := exists_requestOf? hserved.reads call
      have hhandles := hanswer (.send request) state
      rw [answering_attempt answer hrequest]
      exact attempts_ofAnswer
        (attempts_of_handles hserved hname hconcerns hrequest hhandles) call.operation

end Handling

end GitHub

end StubSync
