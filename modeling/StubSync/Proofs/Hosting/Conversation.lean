/-
The requests of a conversation with the service.

All calls go to one service, so either each attempt of a call is sent as one
request, or nothing is ever sent.
-/
import Mathlib.Data.List.Forall2
import StubSync.Hosting.Call
import StubSync.Proofs.Hosting.Calls
import StubSync.Proofs.Http.Address
import StubSync.Proofs.Http.Exchange
import StubSync.Proofs.Retry

namespace StubSync

namespace GitHub

open Interaction (Asked answering seen)

/-- An attempt of a call, and what it was answered. -/
structure Step where
  call : Call
  reply : Except HostingError Json

def step? : (question : Question) → Reply question → Option Step
  | .attempt call, reply => some ⟨call, reply⟩
  | .pause _, _ => none

/-- What may be asked, where only calls need a reason. -/
def MayAsk (ready : List Step → Call → Prop) (history : List Step) : Question → Prop
  | .attempt call => ready history call
  | .pause _ => True

/-- Nothing has to go before a call. -/
def Anything (_ : List Step) (_ : Call) : Prop :=
  True

theorem mayAsk_anything (history : List Step) (question : Question) :
    MayAsk Anything history question := by
  cases question with
  | attempt call => trivial
  | pause span => trivial

section Attempts

variable {α : Type} {ready : List Step → Call → Prop} {history : List Step}
  {policy : RetryPolicy} {request : Call}

/-- Each call may follow the attempts before it, and `post` holds of the result
and all attempts. -/
abbrev Converses (ready : List Step → Call → Prop) (first : Exchange α)
    (post : α → List Step → Prop) (history : List Step) : Prop :=
  first.Paces step? (MayAsk ready) post history

theorem converses_anything (first : Exchange α) :
    Converses Anything first (fun _ _ => True) history :=
  Interaction.paces_anyhow first mayAsk_anything

/-- The attempts of a call that came before its last one. -/
structure Tries (policy : RetryPolicy) (request : Call) (lost : List Step) : Prop where
  passing : ∀ step ∈ lost, step.call = request ∧ IsLost step.reply
  bounded : lost.length ≤ policy.maxRetries
  once : request.method = .post → lost = []

theorem tries_nil : Tries policy request [] where
  passing := List.forall_mem_nil _
  bounded := Nat.zero_le _
  once _ := rfl

/-- All attempts of a call, the last one included, are attempts of that call. -/
theorem Tries.call_eq {lost : List Step} (hlost : Tries policy request lost)
    (reply : Except HostingError Json) :
    ∀ step ∈ lost ++ [⟨request, reply⟩], step.call = request := by
  rw [List.forall_mem_append, List.forall_mem_singleton]
  exact ⟨fun step hstep => (hlost.passing step hstep).1, rfl⟩

theorem attempt_converses {post : Except HostingError Json → List Step → Prop}
    (hready : ready history request) (hpost : ∀ reply, post reply (history ++ [⟨request, reply⟩])) :
    Converses ready (attempt request) post history :=
  ⟨hready, hpost⟩

theorem tries_of_allPassing {lost : List Step} (hrepeatable : request.method ≠ .post)
    (hlost : AllPassing HostingError.isTransient
      (fun reply step => step = (⟨request, reply⟩ : Step)) policy.maxRetries lost) :
    Tries policy request lost where
  passing step hstep := by
    obtain ⟨error, rfl, htransient⟩ := hlost.passing step hstep
    exact ⟨rfl, isLost_error_iff.2 htransient⟩
  bounded := hlost.bounded
  once hmethod := absurd hmethod hrepeatable

/-- A call is attempted again only after attempts that were lost. -/
theorem call_converses
    (hready : ∀ lost, Tries policy request lost → ready (history ++ lost) request) :
    Converses ready (call policy request)
      (fun reply steps => ∃ lost, Tries policy request lost ∧
        steps = history ++ lost ++ [⟨request, reply⟩]) history := by
  unfold call
  split
  · rename_i hrepeatable
    have hmethod : request.method ≠ .post := by
      intro hmethod
      rw [hmethod] at hrepeatable
      cases hrepeatable
    have hretry : Converses ready
        (retry policy HostingError.isTransient pause (attempt request)) _ history :=
      retry_paces (fun _ _ => ⟨trivial, fun _ => List.append_nil _⟩) fun lost hlost =>
        attempt_converses (hready lost (tries_of_allPassing hmethod hlost)) fun _ => ⟨_, rfl, rfl⟩
    refine hretry.bind ?_
    rintro _ _ ⟨lost, _, last, hlost, rfl, rfl, _, rfl⟩
    have hseen := tries_of_allPassing hmethod hlost
    cases last with
    | ok value => exact ⟨lost, hseen, rfl⟩
    | error error => exact ⟨lost, hseen, rfl⟩
  · have hfirst := hready [] tries_nil
    rw [List.append_nil] at hfirst
    refine attempt_converses hfirst fun reply => ⟨[], tries_nil, ?_⟩
    rw [List.append_nil]

/-- What was seen of an attempt is what it was answered. -/
theorem exists_reply_of_seen {σ : Type}
    {answer : (question : Question) → σ → Reply question × σ} {first : Exchange α} {start : σ}
    {step : Step} (hstep : step ∈ seen step? (first.trace answer start)) :
    ∃ state, step.reply = (answer (.attempt step.call) state).1 := by
  obtain ⟨⟨question, state, reply⟩, hentry, hseen⟩ := List.mem_filterMap.1 hstep
  have hreply := Interaction.reply_of_mem_trace hentry
  cases question with
  | pause span => cases hseen
  | attempt call =>
      cases hseen
      exact ⟨state, hreply.symm⟩

end Attempts

section OverWeb

/-- The request of a call, if its address can be read. -/
def requestOf? (config : GitHub) (call : Call) : Option Http.Request :=
  (Address.read? (config.url call)).map fun address =>
    { method := call.method, address, headers := config.headers call, body := call.body }

/-- The attempt was sent as this request, and answered so. -/
def IsSentAs (config : GitHub) (step : Step) (sent : Http.Sent) : Prop :=
  config.requestOf? step.call = some sent.request ∧
    step.reply = ofAnswer step.call.operation sent.reply

theorem head?_append {lead rest : String} {c : Char} (hlead : lead.toList.head? = some c) :
    (lead ++ rest).toList.head? = some c := by
  rw [String.toList_append, List.head?_append, hlead, Option.some_or]

theorem head?_path (call : Call) : call.path.toList.head? = some '/' := by
  have htrees : "/git/trees".toList.head? = some '/' := by decide
  have hcommits : "/git/commits".toList.head? = some '/' := by decide
  have hrefs : "/git/refs".toList.head? = some '/' := by decide
  have hpulls : "/pulls".toList.head? = some '/' := by decide
  have hissues : "/issues".toList.head? = some '/' := by decide
  cases call with
  | listPulls state head page =>
      exact head?_append <| head?_append <| head?_append <| head?_append <| head?_append <|
        head?_append (by decide)
  | readBranch branch => exact head?_append (by decide)
  | readBase branch => exact head?_append (by decide)
  | readCommit commit => exact head?_append (by decide)
  | createTree base changes => exact htrees
  | createCommit message tree parent => exact hcommits
  | createBranch branch commit => exact hrefs
  | deleteBranch branch => exact head?_append (by decide)
  | openPull title head base body => exact hpulls
  | createIssue title body => exact hissues

theorem url_eq (config : GitHub) (call : Call) :
    config.url call = String.ofList ((Text.dropTrailing '/' config.apiUrl).toList ++
      '/' :: (("repos/" ++ config.repository).toList ++ call.path.toList)) := by
  have hrepos : ("/repos/" ++ config.repository).toList =
      '/' :: ("repos/" ++ config.repository).toList := by
    simp [String.toList_append]
  rw [← List.cons_append, ← hrepos, ← String.toList_append, ← String.toList_append,
    String.ofList_toList, ← String.append_assoc]
  rfl

/-- All calls go to one service, or none has an address. -/
theorem service_url (config : GitHub) (first second : Call) :
    (Address.read? (config.url first)).map Address.service =
      (Address.read? (config.url second)).map Address.service := by
  have hrepos : ("repos/" ++ config.repository).toList =
      'r' :: ("epos/" ++ config.repository).toList := by
    simp [String.toList_append]
  have hurl (call : Call) : ∃ rest, config.url call = String.ofList
      ((Text.dropTrailing '/' config.apiUrl).toList ++
        '/' :: 'r' :: ("epos/" ++ config.repository).toList ++ '/' :: rest) := by
    obtain ⟨rest, hrest⟩ := List.head?_eq_some_iff.1 (head?_path call)
    refine ⟨rest, ?_⟩
    rw [url_eq, hrepos, hrest, List.append_assoc]
    rfl
  obtain ⟨before, hbefore⟩ := hurl first
  obtain ⟨after, hafter⟩ := hurl second
  rw [hbefore, hafter]
  exact Address.service_eq_of_lead _ _ before after

theorem requestOf?_eq_none_iff (config : GitHub) (first second : Call) :
    config.requestOf? first = none ↔ config.requestOf? second = none := by
  have hservice := service_url config first second
  rw [requestOf?, requestOf?, Option.map_eq_none_iff, Option.map_eq_none_iff,
    ← Option.map_eq_none_iff (f := Address.service), hservice, Option.map_eq_none_iff]

/-- Where one call makes no request, none does. -/
theorem requestOf?_cases (config : GitHub) :
    (∀ call, config.requestOf? call = none) ∨ ∀ call, config.requestOf? call ≠ none := by
  by_cases hsome : ∃ call, config.requestOf? call = none
  · obtain ⟨first, hfirst⟩ := hsome
    exact Or.inl fun call => (config.requestOf?_eq_none_iff first call).1 hfirst
  · exact Or.inr (not_exists.1 hsome)

variable {α σ : Type} {config : GitHub}
  (answer : (question : Http.Question) → σ → Http.Reply question × σ)

theorem overWeb_attempt (call : Call) :
    config.overWeb (.attempt call) =
      match config.requestOf? call with
      | none => .done (ofAnswer call.operation (.error Http.unmakable))
      | some request =>
          .ask (.send request) fun reply => .done (ofAnswer call.operation reply) := by
  rw [overWeb, requestOf?, Http.send]
  cases Address.read? (config.url call) with
  | none => rfl
  | some address => rfl

theorem answering_attempt {call : Call} {request : Http.Request}
    (hrequest : config.requestOf? call = some request) (state : σ) :
    answering config.overWeb answer (.attempt call) state =
      (ofAnswer call.operation (answer (.send request) state).1,
        (answer (.send request) state).2) := by
  rw [answering, overWeb_attempt, hrequest]
  rfl

/-- Every attempt is answered over the web, or it could not be sent. -/
theorem reply_of_seen {first : Exchange α} {start : σ} {step : Step}
    (hstep : step ∈ seen step? (first.trace (answering config.overWeb answer) start)) :
    ∃ reply, step.reply = ofAnswer step.call.operation reply ∧
      (config.requestOf? step.call = none → reply = .error Http.unmakable) := by
  obtain ⟨state, hreply⟩ := exists_reply_of_seen hstep
  rw [answering, overWeb_attempt] at hreply
  cases hrequest : config.requestOf? step.call with
  | none =>
      rw [hrequest] at hreply
      exact ⟨.error Http.unmakable, hreply, fun _ => rfl⟩
  | some request =>
      rw [hrequest] at hreply
      exact ⟨(answer (.send request) state).1, hreply, nofun⟩

theorem trace_overWeb (call : Call) (state : σ) :
    (config.overWeb (.attempt call)).trace answer state =
      match config.requestOf? call with
      | none => []
      | some request => [⟨.send request, state, (answer (.send request) state).1⟩] := by
  rw [overWeb_attempt]
  cases config.requestOf? call with
  | none => rfl
  | some request => rfl

/-- Where calls have addresses, each attempt is sent as one request. -/
theorem sends_interpret (hreads : ∀ call, config.requestOf? call ≠ none) (first : Exchange α)
    (state : σ) :
    List.Forall₂ (IsSentAs config)
      (seen step? (first.trace (answering config.overWeb answer) state))
      (Http.sends ((first.interpret config.overWeb).trace answer state)) := by
  induction first generalizing state with
  | done result => exact .nil
  | ask question next ih =>
      change List.Forall₂ _ _ (Http.sends
        ((config.overWeb question >>= fun reply => (next reply).interpret _).trace answer state))
      rw [Interaction.trace, Interaction.seen_cons, Interaction.trace_bind, Http.sends,
        Interaction.seen_append]
      refine List.rel_append ?_ (ih _ _)
      cases question with
      | pause span => exact .nil
      | attempt call =>
          obtain ⟨request, hrequest⟩ := Option.ne_none_iff_exists'.1 (hreads call)
          rw [trace_overWeb, hrequest, answering_attempt answer hrequest]
          exact .cons ⟨hrequest, rfl⟩ .nil

/-- A request is sent for a call that is attempted in the same state. -/
theorem exists_attempt_of_mem_trace {first : Exchange α} {start state : σ}
    {request : Http.Request} {reply : Except Http.Failure Http.Answer}
    (hmem : ⟨.send request, state, reply⟩ ∈
      (first.interpret config.overWeb).trace answer start) :
    ∃ call, config.requestOf? call = some request ∧
      ⟨.attempt call, state, ofAnswer call.operation reply⟩ ∈
        first.trace (answering config.overWeb answer) start := by
  induction first generalizing start with
  | done result => cases hmem
  | ask question next ih =>
      change _ ∈ (config.overWeb question >>= fun reply =>
        (next reply).interpret config.overWeb).trace answer start at hmem
      rw [Interaction.trace_bind, List.mem_append] at hmem
      rw [Interaction.trace]
      rcases hmem with hmem | hmem
      · cases question with
        | pause span => cases List.mem_singleton.1 hmem
        | attempt call =>
            rw [trace_overWeb] at hmem
            cases hrequest : config.requestOf? call with
            | none =>
                rw [hrequest] at hmem
                cases hmem
            | some sent =>
                rw [hrequest] at hmem
                cases List.mem_singleton.1 hmem
                refine ⟨call, hrequest, ?_⟩
                rw [answering_attempt answer hrequest]
                exact List.mem_cons_self
      · obtain ⟨call, hrequest, hcall⟩ := ih _ hmem
        exact ⟨call, hrequest, List.mem_cons_of_mem _ hcall⟩

/-- Where no call has an address, nothing is sent. -/
theorem sends_interpret_eq_nil (hreads : ∀ call, config.requestOf? call = none)
    (first : Exchange α) (state : σ) :
    Http.sends ((first.interpret config.overWeb).trace answer state) = [] := by
  induction first generalizing state with
  | done result => rfl
  | ask question next ih =>
      change Http.sends
        ((config.overWeb question >>= fun reply => (next reply).interpret _).trace answer state) = _
      rw [Interaction.trace_bind, Http.sends, Interaction.seen_append]
      refine List.append_eq_nil_iff.2 ⟨?_, ih _ _⟩
      cases question with
      | pause span => rfl
      | attempt call => rw [trace_overWeb, hreads]; rfl

end OverWeb

end GitHub

end StubSync
